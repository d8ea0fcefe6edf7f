/-
The bodies that one service accepts and the messages that the other can process.

The controller publishes a message for every body whose fields are present and whose
coordinate system is known. The orchestrator also needs three corners, an image of at
least one pixel and a URL that fits its column, and a message without them comes back for
ever.
-/

import EchoProcessing.Controller.Service
import EchoProcessing.Orchestrator.Start

namespace EchoProcessing.Controller

open Orchestrator ProcessingController

open EchoOrchestratorRepository (findByProcessingId)

/-- What no constraint of the request asks for. -/
structure EchoRequest.Startable (body : EchoRequest) : Prop where
  imageURL : ∃ imageURL, body.imageURL = some imageURL ∧ FitsColumn imageURL
  sizeX : ∃ sizeX, body.imageSizeX = some sizeX ∧ 0 < sizeX
  sizeY : ∃ sizeY, body.imageSizeY = some sizeY ∧ 0 < sizeY
  corners : ∃ aoi, body.aoi = some aoi ∧ aoi.upperLeft.isSome = true ∧
    aoi.upperRight.isSome = true ∧ aoi.lowerLeft.isSome = true

private theorem startable_bodyOf_iff (message : EchoStartMessage)
    (drawn : FitsColumn message.processingId) :
    (bodyOf message).Startable ↔ message.Startable := by
  constructor
  · rintro ⟨⟨url, urlEq, fits⟩, ⟨sizeX, sizeXEq, positiveX⟩, ⟨sizeY, sizeYEq, positiveY⟩, aoi,
      aoiEq, corners⟩
    cases urlEq
    cases sizeXEq
    cases sizeYEq
    cases aoiEq
    exact ⟨positiveX, positiveY, corners.1, corners.2.1, corners.2.2, drawn, fits⟩
  · intro startable
    exact ⟨⟨_, rfl, startable.texts.imageURL⟩, ⟨_, rfl, startable.sizeX⟩,
      ⟨_, rfl, startable.sizeY⟩, _, rfl, startable.upperLeft, startable.upperRight,
      startable.lowerLeft⟩

/-- The start message of an accepted body is processed exactly when the body is startable, by
a database that does not know its id yet as at every later delivery. Otherwise no delivery of
it is ever acknowledged. -/
theorem accepted_request_starts_iff {uuid : String} {body : EchoRequest} {entity : EntityModel}
    {message : EchoStartMessage} (accepted : echo uuid body = .ok (entity, message))
    (drawn : FitsColumn uuid) :
    (∀ (workerIds : ℕ → String) (scan : Scan) (db : Database),
      NewIds workerIds (tileCount message) db →
      findByProcessingId db uuid = none →
        ((EchoService.start (fun _ => .none) workerIds scan db message).outcome = .ok () ↔
          body.Startable)) ∧
      ∀ requests, message ∈ requests → DistinctIds requests →
        ∀ events system, (∀ event ∈ events, Requested requests event) →
          delivery.Runs (System.initial Database.empty) events system →
          (∀ (workerIds : ℕ → String) (scan : Scan),
            NewIds workerIds (tileCount message) system.db →
              ((EchoService.start (fun _ => .none) workerIds scan system.db message).outcome =
                .ok () ↔ body.Startable)) ∧
            (¬body.Startable → message ∉ system.acknowledged) := by
  obtain ⟨rfl, _, rfl, _⟩ := (echo_eq_ok_iff uuid body entity message).mp accepted
  rw [startable_bodyOf_iff message drawn]
  constructor
  · intro workerIds scan db ids missing
    apply start_returns_iff scan ids
    intro row found
    cases missing.symm.trans found
  · intro requests member distinct events system requested reached
    have progressed := progressed_of_runs distinct requested reached
    constructor
    · intro workerIds scan ids
      exact start_returns_iff scan ids (fun row found => progressed.counted.textsFit member found)
    · intro unstartable acknowledged
      exact unstartable (progressed.acknowledged message acknowledged)

namespace Sample

def body : EchoRequest :=
  { imageURL := some "/in.tif"
    imageSizeX := some 2000
    imageSizeY := some 2000
    aoi := some
      { crs := some "epsg:32613"
        upperLeft := some { x := 0, y := 2000 }
        upperRight := some { x := 2000, y := 2000 }
        lowerLeft := some { x := 0, y := 0 }
        lowerRight := none } }

def cornerless : EchoRequest :=
  { body with aoi := body.aoi.map (fun aoi => { aoi with lowerLeft := none }) }

def negative : EchoRequest :=
  { body with imageSizeX := some (-1) }

def longURL : String :=
  String.ofList (List.replicate 256 'a')

def long : EchoRequest :=
  { body with imageURL := some longURL }

/-- What comes of a first delivery of the start message of a body. -/
def outcome (body : EchoRequest) : Option (Except Failure Unit) :=
  match echo "p" body with
  | .error _ => none
  | .ok (_, message) => some (EchoService.start (fun _ => .none) (fun _ => "w") .insertionOrder
      Database.empty message).outcome

end Sample

theorem accepted_request_starts_iff_whole_body :
    ∃ entity message, echo "p" Sample.body = .ok (entity, message) ∧
      (EchoService.start (fun _ => .none) (fun _ => "w") .insertionOrder Database.empty
        message).outcome = .ok () := by
  have accepted : echo "p" Sample.body =
      .ok (entityModel { id := "p" }, Orchestrator.Sample.startMessage) := by
    decide +kernel
  have ids : NewIds (fun _ => "w") (tileCount Orchestrator.Sample.startMessage)
      Database.empty := by
    refine ⟨?_, fun _ member => by cases member⟩
    decide +kernel
  refine ⟨_, _, accepted, ?_⟩
  apply ((accepted_request_starts_iff accepted (by decide)).1 _ .insertionOrder _ ids rfl).mpr
  exact ⟨⟨_, rfl, by decide⟩, ⟨2000, rfl, by decide⟩, ⟨2000, rfl, by decide⟩, _, rfl, rfl, rfl,
    rfl⟩

private theorem Sample.outcome_of_unfit {url : String} (notBlank : isBlank url = false)
    (unfit : ¬FitsColumn url) :
    outcome { body with imageURL := some url } = some (.error .dataIntegrityViolation) := by
  let message : EchoStartMessage := { Orchestrator.Sample.startMessage with imageURL := url }
  have accepted := (echo_eq_ok_iff "p" { body with imageURL := some url }
    (entityModel { id := "p" }) message).mpr ⟨rfl, notBlank, rfl, rfl⟩
  have refused := start_of_unfit (fun _ => .none) (fun _ => "w") .insertionOrder
    (show message.HasCorners from ⟨rfl, rfl, rfl⟩)
    (show findByProcessingId Database.empty "p" = none from rfl)
    (fun fits => unfit fits.imageURL)
  unfold outcome
  rw [accepted]
  exact congrArg (fun ended => some ended.outcome) refused

private theorem Sample.notBlank_longURL : isBlank longURL = false := by
  unfold isBlank longURL
  rw [String.toList_ofList, List.all_replicate]
  decide

private theorem Sample.unfit_longURL : ¬FitsColumn longURL := by
  unfold FitsColumn longURL
  rw [String.length_ofList, List.length_replicate]
  exact fun fits => absurd fits.1 (by decide)

/-- A body without its lower left corner, one of negative width, and one with a URL that is
too long for its column. -/
theorem accepted_requests_that_never_start :
    Sample.outcome Sample.cornerless = some (.error .nullPointer) ∧
      Sample.outcome Sample.negative = some (.error (.illegalState (some "Empty grid"))) ∧
      Sample.outcome Sample.long = some (.error .dataIntegrityViolation) := by
  refine ⟨?_, ?_, Sample.outcome_of_unfit Sample.notBlank_longURL Sample.unfit_longURL⟩
  · decide +kernel
  · decide +kernel

end EchoProcessing.Controller
