/-
The controller: the body of a request, its validation and the message it publishes.

A body is validated by the annotations of its own fields. The area of interest carries
none, neither on its field nor inside, so only its presence is checked.
-/

import EchoProcessing.Orchestrator.Database

namespace EchoProcessing.Controller

open Orchestrator (EchoStartMessage)

structure AoiRequest where
  crs : Option String
  upperLeft : Option Point
  upperRight : Option Point
  lowerLeft : Option Point
  lowerRight : Option Point
deriving DecidableEq, Repr

structure EchoRequest where
  imageURL : Option String
  imageSizeX : Option ℤ
  imageSizeY : Option ℤ
  aoi : Option AoiRequest
deriving DecidableEq, Repr

inductive Constraint where
  | notBlank
  | notNull
deriving DecidableEq, Repr

/-- The field that is rejected and the constraint that it violates. -/
structure Violation where
  field : String
  constraint : Constraint
deriving DecidableEq, Repr

def notNull {α : Type} (field : String) (value : Option α) : List Violation :=
  if value.isNone then [{ field := field, constraint := .notNull }] else []

/-- Nothing is left of the text once it is trimmed. -/
def isBlank (text : String) : Bool :=
  text.toList.all (fun letter => letter ≤ ' ')

def notBlank (field : String) (value : Option String) : List Violation :=
  if value.all isBlank then [{ field := field, constraint := .notBlank }] else []

/-- What `@Valid` finds in a body. -/
def EchoRequest.violations (body : EchoRequest) : List Violation :=
  notBlank "imageURL" body.imageURL ++ notNull "imageSizeX" body.imageSizeX ++
    notNull "imageSizeY" body.imageSizeY ++ notNull "aoi" body.aoi

private theorem notNull_eq_nil_iff {α : Type} (field : String) (value : Option α) :
    notNull field value = [] ↔ ∃ present, value = some present := by
  cases value <;> simp [notNull]

private theorem notBlank_eq_nil_iff (field : String) (value : Option String) :
    notBlank field value = [] ↔ ∃ text, value = some text ∧ isBlank text = false := by
  cases value <;> simp [notBlank]

private theorem violations_eq_nil_iff (body : EchoRequest) :
    body.violations = [] ↔
      (∃ imageURL, body.imageURL = some imageURL ∧ isBlank imageURL = false) ∧
        (∃ imageSizeX, body.imageSizeX = some imageSizeX) ∧
        (∃ imageSizeY, body.imageSizeY = some imageSizeY) ∧ ∃ aoi, body.aoi = some aoi := by
  simp only [EchoRequest.violations, List.append_eq_nil_iff, notNull_eq_nil_iff,
    notBlank_eq_nil_iff, and_assoc]

structure Processing where
  id : String
deriving DecidableEq, Repr

namespace ProcessingService

/-- The processing and the message that is published for it; `uuid` is what
`UUID.randomUUID` returns. -/
def startEchoProcessing (uuid imageURL : String) (imageSizeX imageSizeY : ℤ) (aoi : Aoi) :
    Processing × EchoStartMessage :=
  ({ id := uuid },
    { processingId := uuid
      imageURL := imageURL
      imageSizeX := imageSizeX
      imageSizeY := imageSizeY
      aoi := aoi })

end ProcessingService

structure EchoResponse where
  processingId : String
deriving DecidableEq, Repr

structure EntityModel where
  content : EchoResponse
  tracker : String
deriving DecidableEq, Repr

inductive Rejection where
  | invalid (violations : List Violation)
  | failed (failure : Failure)
deriving DecidableEq, Repr

namespace ProcessingController

def toAoi (aoiRequest : AoiRequest) : Except Failure Aoi :=
  (CrsService.toCrs aoiRequest.crs).map (fun crs =>
    { crs := crs
      upperLeft := aoiRequest.upperLeft
      upperRight := aoiRequest.upperRight
      lowerLeft := aoiRequest.lowerLeft
      lowerRight := aoiRequest.lowerRight })

def entityModel (processing : Processing) : EntityModel :=
  { content := { processingId := processing.id }
    tracker := "trackers/" ++ processing.id }

/-- The body of the method. A validated request leaves nothing of this null. -/
def publish (uuid : String) (body : EchoRequest) :
    Except Failure (EntityModel × EchoStartMessage) :=
  match body.imageURL, body.imageSizeX, body.imageSizeY, body.aoi with
  | some imageURL, some imageSizeX, some imageSizeY, some aoiRequest => do
      let aoi ← toAoi aoiRequest
      let started := ProcessingService.startEchoProcessing uuid imageURL imageSizeX imageSizeY aoi
      return (entityModel started.1, started.2)
  | _, _, _, _ => .error .nullPointer

def echo (uuid : String) (body : EchoRequest) :
    Except Rejection (EntityModel × EchoStartMessage) :=
  match body.violations with
  | [] => (publish uuid body).mapError Rejection.failed
  | violations => .error (.invalid violations)

private theorem toAoi_eq_ok_iff (aoiRequest : AoiRequest) (aoi : Aoi) :
    toAoi aoiRequest = .ok aoi ↔
      aoiRequest =
        { crs := some aoi.crs.code
          upperLeft := aoi.upperLeft
          upperRight := aoi.upperRight
          lowerLeft := aoi.lowerLeft
          lowerRight := aoi.lowerRight } := by
  constructor
  · intro mapped
    unfold toAoi at mapped
    cases converted : CrsService.toCrs aoiRequest.crs with
    | error failure =>
        rw [converted] at mapped
        cases mapped
    | ok crs =>
        rw [converted] at mapped
        cases mapped
        rw [← (CrsService.toCrs_eq_ok_iff aoiRequest.crs crs).mp converted]
  · rintro rfl
    unfold toAoi
    rw [(CrsService.toCrs_eq_ok_iff _ aoi.crs).mpr rfl]
    rfl

def bodyOf (message : EchoStartMessage) : EchoRequest :=
  { imageURL := some message.imageURL
    imageSizeX := some message.imageSizeX
    imageSizeY := some message.imageSizeY
    aoi := some
      { crs := some message.aoi.crs.code
        upperLeft := message.aoi.upperLeft
        upperRight := message.aoi.upperRight
        lowerLeft := message.aoi.lowerLeft
        lowerRight := message.aoi.lowerRight } }

private theorem publish_eq_ok_iff (uuid : String) (body : EchoRequest) (entity : EntityModel)
    (message : EchoStartMessage) :
    publish uuid body = .ok (entity, message) ↔
      body = bodyOf message ∧ message.processingId = uuid ∧
        entity = entityModel { id := uuid } := by
  constructor
  · intro published
    obtain ⟨imageURL, imageSizeX, imageSizeY, aoiRequest⟩ := body
    unfold publish at published
    split at published
    · rename_i url sizeX sizeY request urlEq sizeXEq sizeYEq requestEq
      cases urlEq
      cases sizeXEq
      cases sizeYEq
      cases requestEq
      cases converted : toAoi request with
      | error failure =>
          rw [converted] at published
          cases published
      | ok aoi =>
          rw [converted] at published
          cases published
          rw [(toAoi_eq_ok_iff request aoi).mp converted]
          exact ⟨rfl, rfl, rfl⟩
    · cases published
  · rintro ⟨rfl, rfl, rfl⟩
    have converted := (toAoi_eq_ok_iff _ message.aoi).mpr rfl
    simp only [publish, bodyOf, converted, bind, Except.bind, pure, Except.pure]
    rfl

/-- Every start message whose URL is not blank is published for the body that spells it
out: the validation restricts neither the sizes nor the corners. -/
theorem echo_eq_ok_iff (uuid : String) (body : EchoRequest) (entity : EntityModel)
    (message : EchoStartMessage) :
    echo uuid body = .ok (entity, message) ↔
      body = bodyOf message ∧ isBlank message.imageURL = false ∧ message.processingId = uuid ∧
        entity = entityModel { id := uuid } := by
  have valid : ∀ body : EchoRequest, body.violations = [] →
      (echo uuid body = .ok (entity, message) ↔ publish uuid body = .ok (entity, message)) := by
    intro body none
    unfold echo
    rw [none]
    cases publish uuid body <;> simp [Except.mapError]
  constructor
  · intro published
    have none : body.violations = [] := by
      unfold echo at published
      split at published
      · assumption
      · cases published
    obtain ⟨rfl, same⟩ := (publish_eq_ok_iff _ _ _ _).mp ((valid body none).mp published)
    obtain ⟨⟨url, urlEq, notBlank⟩, _⟩ := (violations_eq_nil_iff _).mp none
    cases urlEq
    exact ⟨rfl, notBlank, same⟩
  · rintro ⟨rfl, notBlank, same⟩
    have none : (bodyOf message).violations = [] :=
      (violations_eq_nil_iff _).mpr ⟨⟨_, rfl, notBlank⟩, ⟨_, rfl⟩, ⟨_, rfl⟩, _, rfl⟩
    exact (valid _ none).mpr ((publish_eq_ok_iff _ _ _ _).mpr ⟨rfl, same⟩)

end ProcessingController

end EchoProcessing.Controller
