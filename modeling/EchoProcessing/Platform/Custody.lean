/-
What becomes of every published message.

Where all services have connected before the first request, a message is in a queue of
each of its consumers until it has done there what it was published for. When nothing is
pending any more, every accepted request has been carried out in full.
-/

import EchoProcessing.Platform.Refinement
import EchoProcessing.Platform.Steady

namespace EchoProcessing

open Messaging Orchestrator

namespace Messaging

def QueueName.all : List QueueName :=
  [.start, .worker, .workerCallback, .merge, .mergeCallback, .trackerStart,
    .trackerWorkerCallback, .trackerMergeCallback, .deadLetter]

private theorem QueueName.mem_all (name : QueueName) : name ∈ all := by
  cases name <;> decide

end Messaging

namespace Deployment

open EchoWorkerRepository

theorem Consumed.of_start {deployment next : Deployment} {event : Event} {key : RoutingKey}
    {sent : List Json} {message : EchoStartMessage}
    (consumed : Consumed deployment next event key sent .start (Start.message.write message)) :
    ∃ handler totalWorkers, deployment.handlers handler = .starting message totalWorkers [] := by
  generalize written : Start.message.write message = body at consumed
  cases consumed with
  | start phase =>
      obtain rfl := Start.message.write_injective written
      exact ⟨_, _, phase⟩

private theorem Consumed.of_worker {deployment next : Deployment} {event : Event} {key : RoutingKey}
    {sent : List Json} {message : EchoWorkerMessage}
    (consumed : Consumed deployment next event key sent .worker (workerMessage.write message)) :
    key = .workerCallback ∧ ∃ callback : EchoWorkerCallbackMessage,
      callback.workerId = message.workerId ∧ WorkerCallback.message.write callback ∈ sent := by
  generalize written : workerMessage.write message = body at consumed
  cases consumed with
  | worker running keyEq reported =>
      obtain rfl := workerMessage.write_injective written
      exact ⟨keyEq, _, rfl, reported⟩

private theorem Consumed.of_workerCallback {deployment next : Deployment} {event : Event}
    {key : RoutingKey} {sent : List Json} {message : EchoWorkerCallbackMessage}
    (consumed : Consumed deployment next event key sent .workerCallback
      (WorkerCallback.message.write message)) :
    ∃ scan published, EchoWorkerService.callbackEchoWorker scan deployment.db
      message.processingId message.workerId message.imageURL = .ok (next.db, published) := by
  generalize written : WorkerCallback.message.write message = body at consumed
  cases consumed with
  | workerCallback returned =>
      obtain rfl := WorkerCallback.message.write_injective written
      exact ⟨_, _, returned⟩

private theorem Consumed.of_merge {deployment next : Deployment} {event : Event} {key : RoutingKey}
    {sent : List Json} {message : EchoMergeMessage}
    (consumed : Consumed deployment next event key sent .merge (mergeMessage.write message)) :
    key = .mergeCallback ∧ MergeCallback.message.write (Image.mergeCallback message) ∈ sent := by
  generalize written : mergeMessage.write message = body at consumed
  cases consumed with
  | merge keyEq reported =>
      obtain rfl := mergeMessage.write_injective written
      exact ⟨keyEq, reported⟩

theorem Consumed.of_trackerStart {deployment next : Deployment} {event : Event} {key : RoutingKey}
    {sent : List Json} {message : EchoStartMessage}
    (consumed :
      Consumed deployment next event key sent .trackerStart (Start.message.write message)) :
    ∃ now, Tracking.Listener.receiveStartMessage deployment.trackers
      (Platform.trackerStart message) now = .ok next.trackers := by
  generalize written : Start.message.write message = body at consumed
  cases consumed with
  | trackerStart returned =>
      obtain rfl := Start.message.write_injective written
      exact ⟨_, returned⟩

/-- Every key is bound to the queue of each of its consumers. -/
def Connected (deployment : Deployment) : Prop :=
  ∀ entry ∈ wiring, deployment.broker.topology.Routes (.echo, entry.1) entry.2.1

instance (deployment : Deployment) : Decidable deployment.Connected :=
  inferInstanceAs (Decidable (∀ entry ∈ wiring, _))

/-- The worker has a message or a callback that is still pending. -/
def InFlight (deployment : Deployment) (workerId : String) : Prop :=
  (∃ message : EchoWorkerMessage, message.workerId = workerId ∧
    workerMessage.write message ∈ (deployment.queue .worker).pending) ∨
  ∃ message : EchoWorkerCallbackMessage, message.workerId = workerId ∧
    WorkerCallback.message.write message ∈ (deployment.queue .workerCallback).pending

/-- A message is pending until it has done what it was published for. -/
structure Custody (deployment : Deployment) (platform : Platform) : Prop where
  connected : (∃ key body, body ∈ platform.bodies key) → Connected deployment
  starts : ∀ message ∈ platform.startMessages,
    Start.message.write message ∈ (deployment.queue .start).pending ∨
      deployment.db.Started message.processingId
  workers : ∀ row ∈ deployment.db.workers.rows, row.state = .processing →
    InFlight deployment row.workerId
  merges : ∀ message ∈ platform.orchestrator.mergeMessages,
    mergeMessage.write message ∈ (deployment.queue .merge).pending ∨
      Image.mergeCallback message ∈ platform.mergeCallbacks
  trackerStarts : ∀ message ∈ platform.startMessages,
    Start.message.write message ∈ (deployment.queue .trackerStart).pending ∨
      deployment.trackers.find? message.processingId ≠ none

private theorem custody_initial : Custody initial Platform.initial :=
  { connected := by
      rintro ⟨key, body, member⟩
      cases key <;> cases member
    starts := fun _ member => by cases member
    workers := fun _ member => by cases member
    merges := fun _ member => by cases member
    trackerStarts := fun _ member => by cases member }

section Step

variable {deployment next : Deployment} {event : Event} {platform image : Platform}
  {name : QueueName} {gone sent : List Json} {key : RoutingKey}

private theorem Exchanges.wired
    (exchanges : Exchanges deployment next event platform image name gone key sent)
    (custody : Custody deployment platform) (allowed : event.Accepted → Connected deployment)
    (some : sent ≠ []) : Connected deployment := by
  rcases exchanges.caused some with accepted | ⟨other, body, published⟩
  · exact allowed accepted
  · exact custody.connected ⟨other, body, published⟩

theorem Exchanges.old_or_pending
    (exchanges : Exchanges deployment next event platform image name gone key sent)
    (custody : Custody deployment platform) (allowed : event.Accepted → Connected deployment)
    {other : RoutingKey} {body : Json} (published : body ∈ image.bodies other) :
    body ∈ platform.bodies other ∨
      ∀ queue service, (other, queue, service) ∈ wiring → body ∈ (next.queue queue).pending := by
  rcases (exchanges.bodies other body).mp published with old | ⟨rfl, new⟩
  · exact Or.inl old
  · right
    intro queue service wired
    have connected := exchanges.wired custody allowed (List.ne_nil_of_mem new)
    exact exchanges.moves.published queue (connected _ wired) body new

private theorem Exchanges.custody_starts
    (exchanges : Exchanges deployment next event platform image name gone key sent)
    (refines : Refines deployment platform) (steady : Platform.Steady platform)
    (custody : Custody deployment platform) (allowed : event.Accepted → Connected deployment)
    (kept : ∀ processingId, deployment.db.Started processingId → next.db.Started processingId) :
    ∀ message ∈ image.startMessages,
      Start.message.write message ∈ (next.queue .start).pending ∨
        next.db.Started message.processingId := by
  intro message member
  have published : Start.message.write message ∈ image.bodies .start := List.mem_map_of_mem member
  rcases exchanges.old_or_pending custody allowed published with old | pending
  · have earlier := (List.mem_map_of_injective Start.message.write_injective).mp old
    rcases custody.starts message earlier with waiting | started
    · rcases exchanges.moves.kept .start waiting with still | ⟨rfl, left⟩
      · exact Or.inl still
      · right
        apply kept
        obtain ⟨handler, totalWorkers, phase⟩ := (exchanges.consumed _ left).of_start
        have remaining := steady.remaining handler
        have counted := steady.sound.counted.handlers handler
        rw [refines.agrees.handlers, phase, refines.agrees.db] at remaining counted
        exact ⟨counted.2.1.ne_nil, noneInitial_of_remaining remaining⟩
    · exact Or.inr (kept _ started)
  · exact Or.inl (pending .start .orchestrator (by decide))

private theorem Exchanges.custody_workers
    (exchanges : Exchanges deployment next event platform image name gone key sent)
    (custody : Custody deployment platform) (allowed : event.Accepted → Connected deployment) :
    ∀ row ∈ next.db.workers.rows, row.state = .processing → InFlight next row.workerId := by
  intro row member processing
  rcases exchanges.restarted row member processing with old | ⟨rfl, message, same, new⟩
  · rcases custody.workers row old processing with
      ⟨message, same, waiting⟩ | ⟨message, same, waiting⟩
    · rcases exchanges.moves.kept .worker waiting with still | ⟨rfl, left⟩
      · exact Or.inl ⟨message, same, still⟩
      · obtain ⟨rfl, callback, sameWorker, reported⟩ := (exchanges.consumed _ left).of_worker
        have connected := exchanges.wired custody allowed (List.ne_nil_of_mem reported)
        exact Or.inr ⟨callback, sameWorker.trans same, exchanges.moves.published .workerCallback
          (connected (.workerCallback, .workerCallback, .orchestrator) (by decide)) _ reported⟩
    · rcases exchanges.moves.kept .workerCallback waiting with still | ⟨rfl, left⟩
      · exact Or.inr ⟨message, same, still⟩
      · obtain ⟨scan, published, returned⟩ := (exchanges.consumed _ left).of_workerCallback
        exact absurd same.symm (processing_of_callback returned member processing).2
  · have connected := exchanges.wired custody allowed (List.ne_nil_of_mem new)
    exact Or.inl ⟨message, same, exchanges.moves.published .worker
      (connected (.worker, .worker, .worker) (by decide)) _ new⟩

private theorem Exchanges.custody_merges
    (exchanges : Exchanges deployment next event platform image name gone key sent)
    (custody : Custody deployment platform) (allowed : event.Accepted → Connected deployment) :
    ∀ message ∈ image.orchestrator.mergeMessages,
      mergeMessage.write message ∈ (next.queue .merge).pending ∨
        Image.mergeCallback message ∈ image.mergeCallbacks := by
  intro message member
  have reported : ∀ body, body ∈ platform.bodies .mergeCallback ∨
      (RoutingKey.mergeCallback = key ∧ body ∈ sent) → body ∈ image.bodies .mergeCallback :=
    fun body => (exchanges.bodies .mergeCallback body).mpr
  have callback : MergeCallback.message.write (Image.mergeCallback message) ∈
      image.bodies .mergeCallback → Image.mergeCallback message ∈ image.mergeCallbacks :=
    (List.mem_map_of_injective MergeCallback.message.write_injective).mp
  have published : mergeMessage.write message ∈ image.bodies .merge := List.mem_map_of_mem member
  rcases exchanges.old_or_pending custody allowed published with old | pending
  · have earlier := (List.mem_map_of_injective mergeMessage.write_injective).mp old
    rcases custody.merges message earlier with waiting | done
    · rcases exchanges.moves.kept .merge waiting with still | ⟨rfl, left⟩
      · exact Or.inl still
      · obtain ⟨rfl, sentCallback⟩ := (exchanges.consumed _ left).of_merge
        exact Or.inr (callback (reported _ (Or.inr ⟨rfl, sentCallback⟩)))
    · exact Or.inr (callback (reported _ (Or.inl (List.mem_map_of_mem done))))
  · exact Or.inl (pending .merge .merger (by decide))

private theorem Exchanges.custody_trackerStarts
    (exchanges : Exchanges deployment next event platform image name gone key sent)
    (custody : Custody deployment platform) (allowed : event.Accepted → Connected deployment)
    (kept : ∀ processingId, deployment.trackers.find? processingId ≠ none →
      next.trackers.find? processingId ≠ none) :
    ∀ message ∈ image.startMessages,
      Start.message.write message ∈ (next.queue .trackerStart).pending ∨
        next.trackers.find? message.processingId ≠ none := by
  intro message member
  have published : Start.message.write message ∈ image.bodies .start := List.mem_map_of_mem member
  rcases exchanges.old_or_pending custody allowed published with old | pending
  · have earlier := (List.mem_map_of_injective Start.message.write_injective).mp old
    rcases custody.trackerStarts message earlier with waiting | tracked
    · rcases exchanges.moves.kept .trackerStart waiting with still | ⟨rfl, left⟩
      · exact Or.inl still
      · obtain ⟨now, returned⟩ := (exchanges.consumed _ left).of_trackerStart
        exact Or.inr (Tracking.find?_of_receiveStartMessage returned)
    · exact Or.inr (kept _ tracked)
  · exact Or.inl (pending .trackerStart .tracker (by decide))

end Step

theorem Follows.custody {deployment next : Deployment} {event : Event}
    {platform image : Platform} (follows : Follows deployment next event platform image)
    (refines : Refines deployment platform) (steady : Platform.Steady platform)
    (custody : Custody deployment platform) (allowed : event.Accepted → Connected deployment) :
    Custody next image := by
  obtain ⟨followed, run⟩ := follows.run
  obtain ⟨name, gone, key, sent, exchanges⟩ := follows.exchanges
  have agrees := follows.refines.agrees
  have started : ∀ processingId, deployment.db.Started processingId →
      next.db.Started processingId := by
    intro processingId before
    rw [← refines.agrees.db] at before
    rw [← agrees.db]
    exact Platform.started_of_runs run steady before
  have tracked : ∀ processingId, deployment.trackers.find? processingId ≠ none →
      next.trackers.find? processingId ≠ none := by
    intro processingId before
    rw [← refines.agrees.trackers] at before
    rw [← agrees.trackers]
    exact Platform.tracked_of_runs run before
  refine
    { connected := ?_
      starts := exchanges.custody_starts refines steady custody allowed started
      workers := exchanges.custody_workers custody allowed
      merges := exchanges.custody_merges custody allowed
      trackerStarts := exchanges.custody_trackerStarts custody allowed tracked }
  rintro ⟨other, body, published⟩ entry member
  apply exchanges.moves.routes
  rcases (exchanges.bodies other body).mp published with old | ⟨_, new⟩
  · exact custody.connected ⟨other, body, old⟩ entry member
  · exact exchanges.wired custody allowed (List.ne_nil_of_mem new) entry member

/-- Before a request is accepted, all services have connected. -/
def RequestsWhenConnected (deployment : Deployment) (event : Event) : Prop :=
  event.Accepted → Connected deployment

instance (deployment : Deployment) (event : Event) :
    Decidable (RequestsWhenConnected deployment event) :=
  inferInstanceAs (Decidable (event.Accepted → Connected deployment))

structure Kept (deployment : Deployment) (platform : Platform) : Prop where
  refines : Refines deployment platform
  steady : Platform.Steady platform
  custody : Custody deployment platform

theorem kept_initial : Kept initial Platform.initial :=
  { refines := refines_initial
    steady := Platform.steady_initial
    custody := custody_initial }

/-- The start message was published for one of the requests. -/
def AcceptedIn (events : List Event) (message : EchoStartMessage) : Prop :=
  ∃ uuid body entity, Event.post uuid body ∈ events ∧
    Controller.ProcessingController.echo uuid body = .ok (entity, message)

theorem acceptedIn_append (earlier later : List Event) (message : EchoStartMessage) :
    AcceptedIn (earlier ++ later) message ↔
      AcceptedIn earlier message ∨ AcceptedIn later message := by
  simp only [AcceptedIn, List.mem_append, or_and_right, exists_or]

private theorem published_of_post {deployment next : Deployment} {uuid : String}
    {body : Controller.EchoRequest} {entity : Controller.EntityModel} {message : EchoStartMessage}
    (echoed : Controller.ProcessingController.echo uuid body = .ok (entity, message))
    (connected : Connected deployment)
    (stepped : machine.step deployment (.post uuid body) = some next) :
    Start.message.write message ∈ (next.queue .start).pending := by
  change deployment.post uuid body = some next at stepped
  unfold post at stepped
  rw [echoed] at stepped
  obtain ⟨_, published⟩ := Option.ite_none_left_eq_some.mp stepped
  obtain rfl := Option.some.inj published
  apply (Broker.mem_pending_publishAll _ _ _ _ _).mpr
  exact Or.inr ⟨List.mem_singleton_self _,
    connected (.start, .start, .orchestrator) (by decide)⟩

theorem Follows.requested {deployment next : Deployment} {event : Event}
    {platform image : Platform} (follows : Follows deployment next event platform image)
    {message : EchoStartMessage} (member : message ∈ image.startMessages) :
    message ∈ platform.startMessages ∨ AcceptedIn [event] message := by
  obtain ⟨name, gone, key, sent, exchanges⟩ := follows.exchanges
  have published : Start.message.write message ∈ image.bodies .start := List.mem_map_of_mem member
  rcases (exchanges.bodies .start _).mp published with earlier | ⟨own, listed⟩
  · exact Or.inl ((List.mem_map_of_injective Start.message.write_injective).mp earlier)
  · obtain ⟨uuid, body, entity, other, rfl, echoed, _, written⟩ :=
      (exchanges.fresh own.symm).2 _ listed
    obtain rfl := Start.message.write_injective written
    exact Or.inr ⟨uuid, body, entity, List.mem_singleton_self _, echoed⟩

theorem Follows.startMessages {deployment next : Deployment} {event : Event}
    {platform image : Platform} (follows : Follows deployment next event platform image)
    (allowed : RequestsWhenConnected deployment event)
    (stepped : machine.step deployment event = some next) (message : EchoStartMessage) :
    message ∈ image.startMessages ↔
      message ∈ platform.startMessages ∨ AcceptedIn [event] message := by
  obtain ⟨name, gone, key, sent, exchanges⟩ := follows.exchanges
  constructor
  · exact follows.requested
  · rintro (earlier | ⟨uuid, body, entity, here, echoed⟩)
    · have old : Start.message.write message ∈ platform.bodies .start :=
        List.mem_map_of_mem earlier
      exact (List.mem_map_of_injective Start.message.write_injective).mp
        ((exchanges.bodies .start _).mpr (Or.inl old))
    · obtain rfl := List.mem_singleton.mp here
      have pending := published_of_post echoed (allowed ⟨_, echoed⟩) stepped
      exact (List.mem_map_of_injective Start.message.write_injective).mp
        (follows.refines.carried .start _ pending)

theorem Kept.step {deployment next : Deployment} {event : Event} {platform : Platform}
    (kept : Kept deployment platform) (allowed : RequestsWhenConnected deployment event)
    (stepped : machine.step deployment event = some next) :
    ∃ image, Follows deployment next event platform image ∧ Kept next image := by
  obtain ⟨image, follows⟩ := (step_transition stepped).follows kept.refines kept.steady.sound
  obtain ⟨followed, run⟩ := follows.run
  exact ⟨image, follows,
    { refines := follows.refines
      steady := Platform.steady_of_runs run kept.steady
      custody := follows.custody kept.refines kept.steady kept.custody allowed }⟩

/-- One run of the platform for the whole run, with the accepted requests and no others. What
each step keeps of the two states holds at its end. -/
theorem kept_of_runs_with (condition : Deployment → Event → Prop)
    (related : Deployment → Platform → Prop)
    (preserved : ∀ deployment event next platform image, Kept deployment platform →
      related deployment platform → RequestsWhenConnected deployment event →
      condition deployment event → Follows deployment next event platform image →
      related next image)
    (initially : related initial Platform.initial) {events : List Event} {deployment : Deployment}
    (every : machine.EveryStep RequestsWhenConnected initial events)
    (met : machine.EveryStep condition initial events)
    (reached : machine.Runs initial events deployment) :
    ∃ followed platform, Platform.machine.Runs Platform.initial followed platform ∧
      Kept deployment platform ∧ related deployment platform ∧
      ∀ message, message ∈ platform.startMessages ↔ AcceptedIn events message := by
  induction events using List.reverseRecOn generalizing deployment with
  | nil =>
      obtain rfl := (Machine.runs_nil _ _ _).mp reached
      refine ⟨[], _, rfl, kept_initial, initially, fun message => ?_⟩
      simp [Platform.initial, AcceptedIn]
  | append_singleton events event ih =>
      obtain ⟨last, toLast, stepped⟩ := (Machine.runs_snoc _ _ _ _ _).mp reached
      obtain ⟨earlier, platform, toPlatform, kept, holds, accepted⟩ :=
        ih every.of_append met.of_append toLast
      have allowed := every.last toLast
      obtain ⟨image, follows, nextKept⟩ := kept.step allowed stepped
      obtain ⟨followed, run⟩ := follows.run
      refine ⟨earlier ++ followed, image,
        (Machine.runs_append _ _ _ _ _).mpr ⟨platform, toPlatform, run⟩, nextKept,
        preserved last event deployment platform image kept holds allowed (met.last toLast)
          follows, ?_⟩
      intro message
      rw [follows.startMessages allowed stepped, accepted, acceptedIn_append]

namespace Sample

theorem echo_startMessage :
    Controller.ProcessingController.echo "p"
        (Controller.ProcessingController.bodyOf Orchestrator.Sample.startMessage) =
      .ok (Controller.ProcessingController.entityModel { id := "p" },
        Orchestrator.Sample.startMessage) :=
  (Controller.ProcessingController.echo_eq_ok_iff _ _ _ _).mpr ⟨rfl, by decide +kernel, rfl, rfl⟩

end Sample

/-- Nothing is pending in any queue. -/
def Quiescent (deployment : Deployment) : Prop :=
  ∀ name, (deployment.queue name).pending = []

instance (deployment : Deployment) : Decidable deployment.Quiescent :=
  decidable_of_iff (∀ name ∈ QueueName.all, (deployment.queue name).pending.isEmpty = true)
    ⟨fun every name => List.isEmpty_iff.mp (every name name.mem_all),
      fun quiescent name _ => List.isEmpty_iff.mpr (quiescent name)⟩

/-- What the platform is for: all tiles of the image, merged and reported, and a row of the
tracker. -/
structure CarriedOut (deployment : Deployment) (platform : Platform) (message : EchoStartMessage) :
    Prop where
  grid : MatchesGrid message deployment.db
  orchestrator : ∃ row, EchoOrchestratorRepository.findByProcessingId deployment.db
    message.processingId = some row
  tiles : ∀ row ∈ ofProcessing deployment.db message.processingId,
    row.state = .done ∧ row.tileURL = some (Image.tileURL message.processingId row.workerId)
  merged : ∃ merge ∈ platform.orchestrator.mergeMessages,
    MergedIn deployment.db message.processingId merge ∧
      Image.mergeCallback merge ∈ platform.mergeCallbacks
  tracked : deployment.trackers.find? message.processingId ≠ none

theorem Kept.started {deployment : Deployment} {platform : Platform}
    (kept : Kept deployment platform) (quiescent : Quiescent deployment)
    {message : EchoStartMessage} (requested : message ∈ platform.startMessages) :
    deployment.db.Started message.processingId := by
  apply (kept.custody.starts message requested).resolve_left
  rw [quiescent]
  exact List.not_mem_nil

theorem Kept.done {deployment : Deployment} {platform : Platform}
    (kept : Kept deployment platform) (quiescent : Quiescent deployment)
    {message : EchoStartMessage} (requested : message ∈ platform.startMessages) :
    ∀ row ∈ ofProcessing deployment.db message.processingId, row.state = .done := by
  intro row member
  have started := (kept.started quiescent requested).2 row member
  cases state : row.state with
  | init => exact absurd state started
  | done => rfl
  | processing =>
      have stored := ((mem_ofProcessing _ _ _).mp member).1
      rcases kept.custody.workers row stored state with ⟨_, _, waiting⟩ | ⟨_, _, waiting⟩
      · rw [quiescent] at waiting
        cases waiting
      · rw [quiescent] at waiting
        cases waiting

theorem Kept.carriedOut {deployment : Deployment} {platform : Platform}
    (kept : Kept deployment platform) (quiescent : Quiescent deployment)
    {message : EchoStartMessage} (requested : message ∈ platform.startMessages) :
    CarriedOut deployment platform message := by
  have present := (kept.started quiescent requested).1
  have done := kept.done quiescent requested
  have db := kept.refines.agrees.db
  have owned := kept.steady.sound.owned
  have rowFacts : ∀ row ∈ ofProcessing deployment.db message.processingId,
      row ∈ platform.orchestrator.db.workers.rows ∧ row.processingId = message.processingId := by
    rw [db]
    exact fun row => (mem_ofProcessing _ _ _).mp
  constructor
  · have grids := kept.steady.sound.counted.grids message requested
    rw [db] at grids
    exact grids.resolve_left present
  · obtain ⟨row, member⟩ := List.exists_mem_of_ne_nil _ present
    obtain ⟨stored, own⟩ := rowFacts row member
    rw [← db, ← own]
    exact owned.consistent.orchestrator row stored
  · intro row member
    obtain ⟨stored, own⟩ := rowFacts row member
    refine ⟨done row member, ?_⟩
    rw [← own]
    exact tile_of_done owned.consistent stored (done row member)
  · have merged := kept.steady.merged message.processingId
    rw [db] at merged
    obtain ⟨merge, published, own⟩ := merged present done
    refine ⟨merge, published, own, ?_⟩
    apply (kept.custody.merges merge published).resolve_left
    rw [quiescent]
    exact List.not_mem_nil
  · apply (kept.custody.trackerStarts message requested).resolve_left
    rw [quiescent]
    exact List.not_mem_nil

namespace Sample

def drained : List Event :=
  redelivered ++
    [.callback 0 .none .insertionOrder .committed .acknowledged, .merge 0 .acknowledged,
      .mergeCallback 0 .acknowledged, .trackWorkerCallback 0 9 .acknowledged,
      .trackMergeCallback 0 10 .acknowledged]

end Sample

end Deployment

end EchoProcessing
