/-
What lies behind the messages.

A tile that is named anywhere is finished, and a result that is named was built from one
finished tile for each row of its processing. At rest this covers every accepted request,
and each tile shows the cell of its own row.
-/

import EchoProcessing.Image.Naming
import EchoProcessing.Platform.Deliverable
import EchoProcessing.Platform.Rendered

namespace EchoProcessing

open Messaging Orchestrator Image EchoWorkerRepository

open SkipIfExists (Finished)

namespace Site

variable {dataLocal : Bool} {site : Site} {platform : Platform}

/-- The tile is finished, and one execution has made all calls of the program for it. -/
def TileFinished (dataLocal : Bool) (site : Site) (tile : Option String) : Prop :=
  ∃ url, tile = some url ∧ Finished (site.workers.history url) ∧
    ∃ execution source, tileURL source.processingId source.workerId = url ∧
      site.workers.performed execution = (tileProgram dataLocal source).calls

structure ResultFinished (dataLocal : Bool) (site : Site) (processingId : String) : Prop where
  finished : Finished (site.mergers.history (resultURL processingId))
  present : ofProcessing site.deployment.db processingId ≠ []
  made : ∃ execution merge, MergedIn site.deployment.db processingId merge ∧
    (∀ tile ∈ merge.tileURLs, TileFinished dataLocal site tile) ∧
    site.mergers.performed execution = (resultProgram dataLocal merge).calls

private theorem Filed.tileFinished (filed : Filed dataLocal site platform) {url : String}
    (finished : Finished (site.workers.history url)) :
    TileFinished dataLocal site (some url) := by
  obtain ⟨execution, source, _, target, performed⟩ := filed.tiles.recorded.of_finished finished
  exact ⟨url, rfl, finished, execution, source, target, performed⟩

theorem Filed.tile_of_done (filed : Filed dataLocal site platform)
    (refines : Deployment.Refines site.deployment platform) (steady : Platform.Steady platform)
    {row : EchoWorker} (member : row ∈ site.deployment.db.workers.rows)
    (isDone : row.state = .done) : TileFinished dataLocal site row.tileURL := by
  have consistent := steady.sound.owned.consistent
  rw [← refines.agrees.db] at member
  obtain ⟨callback, delivered, _, _, own⟩ := consistent.done row member isDone
  rw [own]
  exact filed.tileFinished (filed.callbacks callback (consistent.delivered callback delivered))

private theorem Filed.tiles_of_merge (filed : Filed dataLocal site platform)
    (steady : Platform.Steady platform) {merge : EchoMergeMessage}
    (published : merge ∈ platform.orchestrator.mergeMessages) :
    ∀ tile ∈ merge.tileURLs, TileFinished dataLocal site tile := by
  intro tile listed
  obtain ⟨callback, member, rfl⟩ := steady.traced.calledBack merge published tile listed
  exact filed.tileFinished (filed.callbacks callback member)

private theorem Filed.resultFinished (filed : Filed dataLocal site platform)
    (refines : Deployment.Refines site.deployment platform) (steady : Platform.Steady platform)
    {processingId : String} (finished : Finished (site.mergers.history (resultURL processingId))) :
    ResultFinished dataLocal site processingId := by
  obtain ⟨execution, merge, published, target, performed⟩ :=
    filed.results.recorded.of_finished finished
  obtain rfl : merge.processingId = processingId := resultURL_inj target
  obtain ⟨present, merged⟩ := steady.traced.complete merge published
  rw [refines.agrees.db] at present merged
  exact
    { finished := finished
      present := present
      made := ⟨execution, merge, merged, filed.tiles_of_merge steady published, performed⟩ }

/-- What the services go by: the rows that are done, the callbacks that are pending, the
merges that are pending or carried out, and the results that are reported. -/
structure Backed (dataLocal : Bool) (site : Site) : Prop where
  rows : ∀ row ∈ site.deployment.db.workers.rows, row.state = .done →
    TileFinished dataLocal site row.tileURL
  callbacks : ∀ name callback, name.source = .workerCallback →
    WorkerCallback.message.write callback ∈ (site.deployment.queue name).pending →
      TileFinished dataLocal site (some callback.imageURL)
  merges : ∀ merge, mergeMessage.write merge ∈ (site.deployment.queue .merge).pending →
    ∀ tile ∈ merge.tileURLs, TileFinished dataLocal site tile
  building : ∀ execution merge, (site.mergers.phases execution).message? = some merge →
    ∀ tile ∈ merge.tileURLs, TileFinished dataLocal site tile
  results : ∀ name callback, name.source = .mergeCallback →
    MergeCallback.message.write callback ∈ (site.deployment.queue name).pending →
      callback.imageURL = resultURL callback.processingId ∧
        ResultFinished dataLocal site callback.processingId

private theorem Filed.backed (filed : Filed dataLocal site platform)
    (refines : Deployment.Refines site.deployment platform) (steady : Platform.Steady platform) :
    Backed dataLocal site := by
  have carried := refines.carried
  refine
    { rows := fun row member isDone => filed.tile_of_done refines steady member isDone
      callbacks := ?_
      merges := ?_
      building := ?_
      results := ?_ }
  · intro name callback source pending
    have published := carried name _ pending
    rw [source] at published
    exact filed.tileFinished (filed.callbacks callback
      ((List.mem_map_of_injective WorkerCallback.message.write_injective).mp published))
  · intro merge pending
    apply filed.tiles_of_merge steady
    exact (List.mem_map_of_injective mergeMessage.write_injective).mp (carried .merge _ pending)
  · intro execution merge current
    exact filed.tiles_of_merge steady
      (filed.results.recorded.sourced.phases execution merge current)
  · intro name callback source pending
    have published := carried name _ pending
    rw [source] at published
    have member := (List.mem_map_of_injective MergeCallback.message.write_injective).mp published
    obtain ⟨merge, _, rfl⟩ := steady.reports callback member
    exact ⟨rfl, filed.resultFinished refines steady (filed.mergeCallbacks _ member)⟩

/-- No service ever goes by a file that is not finished, where no program meets a file that
is only laid down and none lays a file down a second time. -/
theorem named_files_are_finished {events : List Event} {site : Site}
    (intact : (machine dataLocal).EveryStep (Intact dataLocal) initial events)
    (reached : (machine dataLocal).Runs initial events site) : Backed dataLocal site := by
  have met : (machine dataLocal).EveryStep (Deployed (fun _ _ => True)) initial events :=
    fun _ _ _ _ _ _ _ _ => trivial
  obtain ⟨platform, faithful, filed⟩ := filed_of_runs (fun _ _ => True)
    (fun _ deployment platform => Deployment.Faithful deployment platform)
    (fun faithful => faithful.refines) (fun faithful _ stepped => faithful.step stepped)
    Deployment.faithful_initial met intact reached
  exact filed.backed faithful.refines faithful.steady

structure TileRendered (dataLocal : Bool) (site : Site) (message : EchoStartMessage)
    (row : EchoWorker) : Prop where
  finished : Finished (site.workers.history (tileURL message.processingId row.workerId))
  made : ∃ execution source, Carries source row ∧ source.imageURL = message.imageURL ∧
    site.workers.performed execution = (tileProgram dataLocal source).calls

/-- The rows are the cells of the grid, each with its tile, and the result is made of these. -/
structure Rendered (dataLocal : Bool) (site : Site) (message : EchoStartMessage) : Prop where
  grid : MatchesGrid message site.deployment.db
  tiles : ∀ row ∈ ofProcessing site.deployment.db message.processingId,
    TileRendered dataLocal site message row
  result : ResultFinished dataLocal site message.processingId

/-- The ids of the requests have the form that `UUID.randomUUID` gives them. -/
def DrawsUuids (events : List Deployment.Event) : Prop :=
  ∀ uuid body, Deployment.Event.post uuid body ∈ events → IsUuid uuid

structure Accounted (events : List Deployment.Event) (deployment : Deployment)
    (platform : Platform) : Prop where
  kept : Deployment.Kept deployment platform
  accepted : ∀ message, message ∈ platform.startMessages ↔ Deployment.AcceptedIn events message

theorem Accounted.step {events : List Deployment.Event} {deployment next : Deployment}
    {event : Deployment.Event} (accounted : Accounted events deployment platform)
    (allowed : Deployment.RequestsWhenConnected deployment event)
    (stepped : Deployment.machine.step deployment event = some next) :
    ∃ image, Deployment.Follows deployment next event platform image ∧
      Accounted (events ++ [event]) next image := by
  obtain ⟨image, follows, kept⟩ := accounted.kept.step allowed stepped
  refine ⟨image, follows, kept, ?_⟩
  intro message
  rw [follows.startMessages allowed stepped, accounted.accepted, Deployment.acceptedIn_append]

private theorem accounted_initial : Accounted [] .initial Platform.initial :=
  { kept := Deployment.kept_initial
    accepted := by
      intro message
      constructor
      · intro impossible
        cases impossible
      · rintro ⟨uuid, body, entity, impossible, _⟩
        cases impossible }

section

variable {events : List Deployment.Event}

private theorem Accounted.tile_inj (accounted : Accounted events site.deployment platform)
    (uuids : DrawsUuids events) {source : EchoWorkerMessage}
    (published : source ∈ platform.orchestrator.workerMessages) {message : EchoStartMessage}
    (requested : message ∈ platform.startMessages) {workerId : String}
    (same : tileURL source.processingId source.workerId =
      tileURL message.processingId workerId) :
    source.processingId = message.processingId ∧ source.workerId = workerId := by
  have length : ∀ request ∈ platform.startMessages, request.processingId.length = 36 := by
    intro request member
    obtain ⟨uuid, body, entity, posted, echoed⟩ := (accounted.accepted request).mp member
    rw [((Controller.ProcessingController.echo_eq_ok_iff _ _ _ _).mp echoed).2.2.1]
    exact (uuids uuid body posted).length
  obtain ⟨other, otherRequested, own, _⟩ :=
    accounted.kept.steady.sound.counted.totals source published
  apply tileURL_inj_of_length _ same
  rw [own, length other otherRequested, length message requested]

private theorem Filed.tileRendered (filed : Filed dataLocal site platform)
    (accounted : Accounted events site.deployment platform) (uuids : DrawsUuids events)
    {message : EchoStartMessage} (requested : message ∈ platform.startMessages)
    {row : EchoWorker} (member : row ∈ ofProcessing site.deployment.db message.processingId)
    (finished : Finished (site.workers.history (tileURL message.processingId row.workerId))) :
    TileRendered dataLocal site message row := by
  obtain ⟨execution, source, published, target, performed⟩ :=
    filed.tiles.recorded.of_finished finished
  obtain ⟨_, sameWorker⟩ := accounted.tile_inj uuids published requested target
  have steady := accounted.kept.steady
  have db := accounted.kept.refines.agrees.db
  obtain ⟨stored, own⟩ := (mem_ofProcessing _ _ _).mp member
  rw [← db] at stored
  obtain ⟨announced, announcedMember, carries⟩ := steady.traced.announced source published
  obtain rfl : announced = row := platform.orchestrator.db.workers.eq_of_key_eq announcedMember
    stored (carries.2.1.symm.trans sameWorker)
  obtain ⟨request, requestMember, sameRequest, image⟩ := steady.traced.rows announced stored
  obtain rfl : request = message := steady.sound.counted.distinct request requestMember message
    requested (sameRequest.trans own)
  exact ⟨finished, execution, source, carries, carries.2.2.1.trans image.symm, performed⟩

theorem Filed.rendered (filed : Filed dataLocal site platform)
    (accounted : Accounted events site.deployment platform) (uuids : DrawsUuids events)
    (quiescent : site.deployment.Quiescent) {message : EchoStartMessage}
    (requested : message ∈ platform.startMessages) : Rendered dataLocal site message := by
  have refines := accounted.kept.refines
  have steady := accounted.kept.steady
  have carriedOut := accounted.kept.carriedOut quiescent requested
  refine
    { grid := carriedOut.grid
      tiles := ?_
      result := ?_ }
  · intro row member
    obtain ⟨isDone, tile⟩ := carriedOut.tiles row member
    have stored := ((mem_ofProcessing _ _ _).mp member).1
    obtain ⟨url, own, finished, _⟩ := filed.tile_of_done refines steady stored isDone
    obtain rfl := Option.some.inj (tile.symm.trans own)
    exact filed.tileRendered accounted uuids requested member finished
  · obtain ⟨merge, _, ⟨own, _⟩, reported⟩ := carriedOut.merged
    rw [← own]
    exact filed.resultFinished refines steady (filed.mergeCallbacks _ reported)

end

theorem accounted_of_runs {events : List Event} {site : Site}
    (every : (machine dataLocal).EveryStep (Deployed Deployment.RequestsWhenConnected) initial
      events)
    (intact : (machine dataLocal).EveryStep (Intact dataLocal) initial events)
    (reached : (machine dataLocal).Runs initial events site) :
    ∃ platform, Accounted (deployed events) site.deployment platform ∧
      Filed dataLocal site platform :=
  filed_of_runs Deployment.RequestsWhenConnected Accounted
    (fun accounted => accounted.kept.refines)
    (fun accounted allowed stepped => accounted.step allowed stepped) accounted_initial every
    intact reached

/-- When nothing is pending any more, each accepted request has all its files, whatever was
delivered again, rolled back or ended early on the way. -/
theorem accepted_requests_are_rendered {events : List Event} {site : Site}
    (uuids : DrawsUuids (deployed events))
    (every : (machine dataLocal).EveryStep (Deployed Deployment.RequestsWhenConnected) initial
      events)
    (intact : (machine dataLocal).EveryStep (Intact dataLocal) initial events)
    (reached : (machine dataLocal).Runs initial events site)
    (quiescent : site.deployment.Quiescent) :
    ∀ message, Deployment.AcceptedIn (deployed events) message →
      Rendered dataLocal site message := by
  intro message member
  obtain ⟨platform, accounted, filed⟩ := accounted_of_runs every intact reached
  exact filed.rendered accounted uuids quiescent ((accounted.accepted message).mpr member)

namespace Sample

def startMessage : EchoStartMessage :=
  { Orchestrator.Sample.startMessage with processingId := UUID.toString 0 1 }

/-- The worker stops before it has laid the tile down, and takes the message again. -/
def restarted : List Event :=
  ([.connect .orchestrator, .connect .worker, .connect .merger, .connect .tracker,
    .post (UUID.toString 0 1) (Controller.ProcessingController.bodyOf startMessage),
    .trackStart 0 5 .acknowledged, .receive 0 0 .none, .createOrchestrator 0,
    .createWorkers 0 .none (fun _ => UUID.toString 0 2) .insertionOrder,
    .startEchoWorker 0 .none .committed, .acknowledge 0].map Event.deploy) ++
  [.work 0 0 0, .checkTile 0, .callTile 0, .restart 0, .work 0 0 1, .checkTile 0] ++
  List.replicate 7 (.callTile 0) ++
  [.report 0 .acknowledged,
    .deploy (.callback 0 .none .insertionOrder .committed .acknowledged), .receiveMerge 0 0,
    .checkResult 0, .callResult 0, .callResult 0, .callResult 0, .merge 0 0 .acknowledged] ++
  [.mergeCallback 0 .acknowledged, .trackWorkerCallback 0 9 .acknowledged,
    .trackMergeCallback 0 10 .acknowledged].map Event.deploy

theorem intact_restarted :
    (machine true).EveryStep (Intact true) initial restarted := by
  decide +kernel

theorem connected_restarted :
    (machine true).EveryStep (Deployed Deployment.RequestsWhenConnected) initial restarted := by
  decide +kernel

theorem runs_restarted :
    ∃ site, (machine true).Runs initial restarted site ∧ site.deployment.Quiescent := by
  have observed : ((machine true).run initial restarted).map
      (fun site => decide site.deployment.Quiescent) = some true := by
    decide +kernel
  obtain ⟨site, reached, value⟩ := Option.map_eq_some_iff.mp observed
  exact ⟨site, reached, of_decide_eq_true value⟩

private theorem deployed_restarted (uuid : String) (body : Controller.EchoRequest) :
    .post uuid body ∈ deployed restarted ↔
      uuid = UUID.toString 0 1 ∧ body = Controller.ProcessingController.bodyOf startMessage := by
  simp [deployed, restarted, Event.deployment?]

theorem uuids_restarted : DrawsUuids (deployed restarted) := by
  intro uuid body posted
  rw [((deployed_restarted uuid body).mp posted).1]
  exact UUID.isUuid_toString 0 1

theorem acceptedIn_restarted : Deployment.AcceptedIn (deployed restarted) startMessage := by
  refine ⟨_, _, Controller.ProcessingController.entityModel { id := UUID.toString 0 1 },
    (deployed_restarted _ _).mpr ⟨rfl, rfl⟩, ?_⟩
  exact (Controller.ProcessingController.echo_eq_ok_iff _ _ _ _).mpr
    ⟨rfl, by decide +kernel, rfl, rfl⟩

end Sample

theorem named_files_are_finished_restarted :
    ∃ site, (machine true).Runs initial Sample.restarted site ∧ Backed true site := by
  obtain ⟨site, reached, _⟩ := Sample.runs_restarted
  exact ⟨site, reached, named_files_are_finished Sample.intact_restarted reached⟩

theorem accepted_requests_are_rendered_restarted :
    ∃ site, (machine true).Runs initial Sample.restarted site ∧
      Rendered true site Sample.startMessage := by
  obtain ⟨site, reached, quiescent⟩ := Sample.runs_restarted
  exact ⟨site, reached, accepted_requests_are_rendered Sample.uuids_restarted
    Sample.connected_restarted Sample.intact_restarted reached quiescent _
    Sample.acceptedIn_restarted⟩

end Site

end EchoProcessing
