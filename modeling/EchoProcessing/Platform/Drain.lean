/-
When the queues can be emptied.

From any reachable state whose messages can all be handled, the services carry on without
another request until no message is pending: what is held is given back, and then one queue
after the other is emptied, each before those that its listener answers to.
-/

import EchoProcessing.Library.Progress
import EchoProcessing.Platform.Deliverable
import Mathlib.Data.Set.Finite.Basic

namespace EchoProcessing

open Messaging Orchestrator

namespace Messaging

def QueueName.answer? : QueueName → Option RoutingKey
  | .start => some .worker
  | .worker => some .workerCallback
  | .workerCallback => some .merge
  | .merge => some .mergeCallback
  | _ => none

/-- A queue that a listener of the first one leaves as it is. -/
def QueueName.Spares (name other : QueueName) : Prop :=
  other ≠ name ∧ name.answer? ≠ some other.source

instance (name other : QueueName) : Decidable (name.Spares other) :=
  inferInstanceAs (Decidable (_ ∧ _))

private theorem QueueName.answer?_ne_source (name : QueueName) :
    name.answer? ≠ some name.source := by
  cases name <;> decide

/-- Each queue comes before those that its listener publishes for. -/
def QueueName.drainOrder : List QueueName :=
  [.trackerStart, .start, .worker, .workerCallback, .merge, .mergeCallback,
    .trackerWorkerCallback, .trackerMergeCallback]

private theorem QueueName.pairwise_drainOrder :
    drainOrder.Pairwise (fun earlier later => later.Spares earlier) := by
  decide

private theorem QueueName.mem_drainOrder {name : QueueName} (listener : name ≠ .deadLetter) :
    name ∈ drainOrder := by
  cases name with
  | deadLetter => exact absurd rfl listener
  | _ => decide

end Messaging

namespace Orchestrator

theorem startEchoWorker_returns (db : Database) (worker : EchoWorker) (totalWorkers : ℤ) :
    ∃ result, EchoWorkerService.startEchoWorker .none db worker totalWorkers = .ok result := by
  unfold EchoWorkerService.startEchoWorker
  split
  · exact ⟨_, rfl⟩
  · exact ⟨_, rfl⟩

end Orchestrator

namespace Deployment

/-! ### Runs that only finish what was begun -/

/-- No request, and no acknowledgement of the tracker that is lost. -/
def Event.Closing : Event → Prop
  | .post _ _ => False
  | .trackStart _ _ settlement => settlement = .acknowledged
  | _ => True

theorem Event.Closing.healthy {event : Event} (closing : event.Closing) : event.Healthy := by
  cases event with
  | post uuid body => cases closing
  | trackStart position now settlement => exact closing
  | _ => trivial

/-- A state of a run in which every message can be handled. -/
def Sane (deployment : Deployment) : Prop :=
  (∃ platform, Faithful deployment platform) ∧ Deliverable deployment

theorem Sane.leads {deployment next : Deployment} (sane : Sane deployment)
    (leads : machine.Leads Event.Closing deployment next) : Sane next := by
  apply leads.invariant ?_ sane
  rintro state event after closing ⟨⟨platform, faithful⟩, deliverable⟩ stepped
  obtain ⟨image, _, kept⟩ := faithful.step stepped
  exact ⟨⟨image, kept⟩, deliverable.step faithful closing.healthy stepped⟩

theorem Sane.attended {deployment : Deployment} (sane : Sane deployment) :
    Attended deployment := by
  obtain ⟨⟨platform, faithful⟩, _⟩ := sane
  exact faithful.refines.attended

/-- The first handler and the first thread are free, and nobody holds a delivery. -/
structure Calm (deployment : Deployment) : Prop where
  handler : deployment.handlers 0 = .idle
  thread : (deployment.threads 0).running = none
  unacked : ∀ name, (deployment.queue name).unacked = []

/-- A message is handled, and its queue is shorter after it. -/
structure Round (name : QueueName) (deployment next : Deployment) : Prop where
  leads : machine.Leads Event.Closing deployment next
  calm : Calm next
  shorter : (next.queue name).ready.length < (deployment.queue name).ready.length
  kept : ∀ other, name.Spares other → next.queue other = deployment.queue other

/-! ### What is published reaches the queues of its key only -/

/-- A queue is bound with no other key than its own. -/
def BoundBySource (topology : EchoTopology) : Prop :=
  ∀ key name, key ≠ .echo → name.source ≠ key → ¬topology.Routes (.echo, key) name

private theorem Attended.boundBySource {deployment : Deployment} (attended : Attended deployment) :
    BoundBySource deployment.broker.topology := by
  intro key name known other routed
  obtain ⟨services, declared⟩ := attended.declared
  obtain ⟨service, _, bound⟩ := (declared.routes _ _).mp routed
  exact other (source_of_declaration service bound known).symm

private theorem queue_publish_of_source_ne {deployment : Deployment}
    (bound : BoundBySource deployment.broker.topology) {key : RoutingKey} (known : key ≠ .echo)
    {name : QueueName} (other : name.source ≠ key) (bodies : List Json) :
    (deployment.publish key bodies).queue name = deployment.queue name :=
  deployment.broker.queues_publishAll_of_not_routes (bound key name known other) bodies

private theorem deliver_of_read {α : Type} {deployment : Deployment} {name : QueueName}
    {position : ℕ}
    {read : Json → Option α} (listener : Json → WorkQueue ℕ Json → α → Deployment) {body : Json}
    {rest : WorkQueue ℕ Json} {payload : α}
    (taken : (deployment.queue name).take? position = some (body, rest))
    (readable : read body = some payload) :
    deployment.deliver name position read listener = some (listener body rest payload) := by
  unfold deliver
  simp only [taken, readable]

theorem Calm.round {deployment next : Deployment} {name : QueueName} {body : Json}
    {rest : WorkQueue ℕ Json} (calm : Calm deployment)
    (taken : (deployment.queue name).take? 0 = some (body, rest))
    (leads : machine.Leads Event.Closing deployment next) (handler : next.handlers 0 = .idle)
    (thread : (next.threads 0).running = none) (own : next.queue name = rest)
    (unacked : ∀ other, other ≠ name →
      (next.queue other).unacked = (deployment.queue other).unacked)
    (kept : ∀ other, name.Spares other → next.queue other = deployment.queue other) :
    Round name deployment next := by
  refine
    { leads := leads
      calm := { handler := handler, thread := thread, unacked := ?_ }
      shorter := ?_
      kept := kept }
  · intro other
    by_cases same : other = name
    · rw [same, own, WorkQueue.unacked_of_take? taken, calm.unacked]
    · rw [unacked other same, calm.unacked]
  · rw [own]
    exact WorkQueue.length_ready_of_take? taken

/-! ### Listeners that are one transaction -/

theorem Calm.settled {deployment base : Deployment} {event : Event} {name : QueueName}
    {body : Json} {rest : WorkQueue ℕ Json} {key : RoutingKey} {bodies : List Json}
    (calm : Calm deployment) (attended : Attended deployment)
    (taken : (deployment.queue name).take? 0 = some (body, rest))
    (stepped : machine.step deployment event =
      some ((base.settle name rest .acknowledged).publish key bodies))
    (closing : event.Closing)
    (broker : base.broker = deployment.broker) (handlers : base.handlers = deployment.handlers)
    (threads : base.threads = deployment.threads) (known : key ≠ .echo)
    (answer : bodies = [] ∨ name.answer? = some key) :
    Round name deployment ((base.settle name rest .acknowledged).publish key bodies) := by
  have bound : BoundBySource (base.setQueue name rest).broker.topology := by
    change BoundBySource base.broker.topology
    rw [broker]
    exact attended.boundBySource
  have same : ∀ other, base.queue other = deployment.queue other := by
    intro other
    unfold queue
    rw [broker]
  have unanswered : ∀ other, name.answer? ≠ some other.source →
      ((base.settle name rest .acknowledged).publish key bodies).queue other =
        (base.setQueue name rest).queue other := by
    intro other silent
    rcases answer with rfl | answers
    · rfl
    · apply queue_publish_of_source_ne bound known
      intro same
      rw [answers, same] at silent
      exact silent rfl
  apply calm.round taken (.single stepped closing)
  · change base.handlers 0 = .idle
    rw [handlers, calm.handler]
  · change (base.threads 0).running = none
    rw [threads, calm.thread]
  · rw [unanswered name name.answer?_ne_source, queue_setQueue_self]
  · intro other different
    rw [unacked_publish]
    change ((base.setQueue name rest).queue other).unacked = _
    rw [queue_setQueue_of_ne _ different, same]
  · intro other spared
    rw [unanswered other spared.2, queue_setQueue_of_ne _ spared.1, same]

private theorem exists_round_workerCallback {deployment : Deployment} (sane : Sane deployment)
    (calm : Calm deployment) (some : (deployment.queue .workerCallback).ready ≠ []) :
    ∃ next, Round .workerCallback deployment next := by
  obtain ⟨⟨platform, faithful⟩, _⟩ := sane
  obtain ⟨body, rest, taken⟩ := WorkQueue.exists_take?_of_ready some
  obtain ⟨message, member, rfl⟩ := List.mem_map.mp (faithful.refines.mem_bodies taken)
  obtain ⟨merge, returned, _⟩ := callback_outcome faithful.steady.sound.owned.consistent member
    Scan.insertionOrder
  rw [faithful.refines.agrees.db] at returned
  have stepped : machine.step deployment
      (.callback 0 .none .insertionOrder .committed .acknowledged) =
      .some ((({ deployment with db := ownUpdate deployment.db message } : Deployment).settle
        .workerCallback rest .acknowledged).publish .merge
          (merge.toList.map mergeMessage.write)) := by
    have received : Orchestrator.Listener.receiveWorkerCallbackMessage .none .insertionOrder
        deployment.db message = .ok (ownUpdate deployment.db message, merge) := returned
    change deployment.callback 0 .none .insertionOrder .committed .acknowledged = _
    unfold callback
    rw [deliver_of_read _ taken (WorkerCallback.message.read_write message), received]
  exact ⟨_, calm.settled faithful.refines.attended taken stepped trivial rfl rfl rfl (by decide)
    (Or.inr rfl)⟩

private theorem exists_round_merge {deployment : Deployment} (sane : Sane deployment)
    (calm : Calm deployment) (some : (deployment.queue .merge).ready ≠ []) :
    ∃ next, Round .merge deployment next := by
  obtain ⟨⟨platform, faithful⟩, _⟩ := sane
  obtain ⟨body, rest, taken⟩ := WorkQueue.exists_take?_of_ready some
  obtain ⟨message, member, rfl⟩ := List.mem_map.mp (faithful.refines.mem_bodies taken)
  have stepped : machine.step deployment (.merge 0 .acknowledged) =
      .some ((deployment.settle .merge rest .acknowledged).publish .mergeCallback
        [MergeCallback.message.write (Image.mergeCallback message)]) := by
    change deployment.merge 0 _ = _
    unfold merge
    rw [deliver_of_read _ taken (mergeMessage.read_write message)]
  exact ⟨_, calm.settled faithful.refines.attended taken stepped trivial rfl rfl rfl (by decide)
    (Or.inr rfl)⟩

private theorem exists_round_mergeCallback {deployment : Deployment} (sane : Sane deployment)
    (calm : Calm deployment) (some : (deployment.queue .mergeCallback).ready ≠ []) :
    ∃ next, Round .mergeCallback deployment next := by
  obtain ⟨⟨platform, faithful⟩, _⟩ := sane
  obtain ⟨body, rest, taken⟩ := WorkQueue.exists_take?_of_ready some
  obtain ⟨message, member, rfl⟩ := List.mem_map.mp (faithful.refines.mem_bodies taken)
  have stepped : machine.step deployment (.mergeCallback 0 .acknowledged) =
      .some ((deployment.settle .mergeCallback rest .acknowledged).publish .merge []) := by
    change deployment.mergeCallback 0 _ = _
    unfold mergeCallback
    rw [deliver_of_read _ taken (MergeCallback.message.read_write message)]
    rfl
  exact ⟨_, calm.settled faithful.refines.attended taken stepped trivial rfl rfl rfl (by decide)
    (Or.inl rfl)⟩

/-! ### The tracker's listeners -/

theorem Calm.tracked {α : Type} {deployment : Deployment} {event : Event} {name : QueueName}
    {body : Json} {rest : WorkQueue ℕ Json} {read : Json → Option α}
    {listener : Tracking.Trackers → α → Except Failure Tracking.Trackers} {payload : α}
    {trackers : Tracking.Trackers} (calm : Calm deployment) (attended : Attended deployment)
    (taken : (deployment.queue name).take? 0 = some (body, rest))
    (readable : read body = some payload)
    (returned : listener deployment.trackers payload = .ok trackers)
    (own : machine.step deployment event =
      deployment.track name 0 .acknowledged read listener) (closing : event.Closing) :
    ∃ next, Round name deployment next := by
  have stepped : machine.step deployment event =
      some ((({ deployment with trackers := trackers } : Deployment).settle name rest
        .acknowledged).publish .merge []) := by
    rw [own]
    unfold track
    rw [deliver_of_read _ taken readable, returned]
    rfl
  exact ⟨_, calm.settled attended taken stepped closing rfl rfl rfl (by decide) (Or.inl rfl)⟩

private theorem exists_round_trackerStart {deployment : Deployment} (sane : Sane deployment)
    (calm : Calm deployment) (some : (deployment.queue .trackerStart).ready ≠ []) :
    ∃ next, Round .trackerStart deployment next := by
  obtain ⟨⟨platform, faithful⟩, deliverable⟩ := sane
  obtain ⟨body, rest, taken⟩ := WorkQueue.exists_take?_of_ready some
  obtain ⟨message, member, rfl⟩ := List.mem_map.mp (faithful.refines.mem_bodies taken)
  have waiting : Start.message.write message ∈ (deployment.queue .trackerStart).pending :=
    (WorkQueue.pending_of_take? taken).mem_iff.mpr List.mem_cons_self
  have free : deployment.trackers.find?
      (Tracking.TrackerService.newTracker message.processingId 0).processingId = none :=
    deliverable.untracked message waiting
  obtain ⟨trackers, saved, _⟩ := Tracking.save_of_free free
  have own : machine.step deployment (.trackStart 0 0 .acknowledged) =
      deployment.track .trackerStart 0 .acknowledged Start.tracker (fun trackers payload =>
        Tracking.Listener.receiveStartMessage trackers payload 0) := rfl
  exact calm.tracked faithful.refines.attended taken (tracker_start message) saved own rfl

theorem exists_round_trackerWorkerCallback {deployment : Deployment} (sane : Sane deployment)
    (calm : Calm deployment) (some : (deployment.queue .trackerWorkerCallback).ready ≠ []) :
    ∃ next, Round .trackerWorkerCallback deployment next := by
  obtain ⟨⟨platform, faithful⟩, _⟩ := sane
  obtain ⟨body, rest, taken⟩ := WorkQueue.exists_take?_of_ready some
  obtain ⟨message, member, rfl⟩ := List.mem_map.mp (faithful.refines.mem_bodies taken)
  have sound := faithful.steady.sound
  obtain ⟨source, sourceMember, rfl⟩ := sound.owned.consistent.callbackMessages message member
  obtain ⟨request, _, _, grid, total⟩ := sound.counted.totals source sourceMember
  have positive := grid.one_le_tileCount
  have nonzero : source.trackerTotalWorkers ≠ 0 := by omega
  have carried : (Platform.trackerCallback source.callback).trackerTotalWorkers =
      .some source.trackerTotalWorkers := rfl
  obtain ⟨trackers, returned⟩ := Platform.receiveWorkerCallbackMessage_of_total
    deployment.trackers 0 carried nonzero
  have own : machine.step deployment (.trackWorkerCallback 0 0 .acknowledged) =
      deployment.track .trackerWorkerCallback 0 .acknowledged WorkerCallback.tracker
        (fun trackers payload =>
          Tracking.Listener.receiveWorkerCallbackMessage trackers payload 0) := rfl
  exact calm.tracked faithful.refines.attended taken (tracker_workerCallback source.callback)
    returned own trivial

private theorem exists_round_trackerMergeCallback {deployment : Deployment} (sane : Sane deployment)
    (calm : Calm deployment) (some : (deployment.queue .trackerMergeCallback).ready ≠ []) :
    ∃ next, Round .trackerMergeCallback deployment next := by
  obtain ⟨⟨platform, faithful⟩, _⟩ := sane
  obtain ⟨body, rest, taken⟩ := WorkQueue.exists_take?_of_ready some
  obtain ⟨message, member, rfl⟩ := List.mem_map.mp (faithful.refines.mem_bodies taken)
  have own : machine.step deployment (.trackMergeCallback 0 0 .acknowledged) =
      deployment.track .trackerMergeCallback 0 .acknowledged MergeCallback.tracker
        (fun trackers payload =>
          .ok (Tracking.TrackerService.finishProcessing trackers payload.processingId 0)) := rfl
  exact calm.tracked faithful.refines.attended taken (tracker_mergeCallback message) rfl own trivial

/-! ### A worker -/

private theorem held_of_unacked {queue : WorkQueue ℕ Json} (none : queue.unacked = [])
    (consumer : ℕ) :
    queue.held consumer = [] := by
  unfold WorkQueue.held
  rw [none]
  rfl

private theorem acknowledge_hold {queue : WorkQueue ℕ Json} (none : queue.unacked = [])
    (consumer : ℕ) (body : Json) : (queue.hold consumer body).acknowledge consumer = queue := by
  obtain ⟨ready, unacked⟩ := queue
  obtain rfl : unacked = [] := none
  simp [WorkQueue.hold, WorkQueue.acknowledge]

structure Began (deployment next : Deployment) (message : EchoWorkerMessage)
    (rest : WorkQueue ℕ Json) : Prop where
  stepped : machine.step deployment (.work 0 0) = some next
  topology : next.broker.topology = deployment.broker.topology
  handlers : next.handlers = deployment.handlers
  running : (next.threads 0).running = some message
  own : next.queue .worker = rest.hold 0 (workerMessage.write message)
  kept : ∀ other, other ≠ .worker → next.queue other = deployment.queue other

private theorem Calm.exists_began {deployment : Deployment} (calm : Calm deployment)
    {message : EchoWorkerMessage} {rest : WorkQueue ℕ Json}
    (taken : (deployment.queue .worker).take? 0 = some (workerMessage.write message, rest)) :
    ∃ next, Began deployment next message rest := by
  refine ⟨(deployment.setThread 0 (.receiveMessage message)).setQueue .worker
      (rest.hold 0 (workerMessage.write message)), ?_⟩
  constructor
  · change deployment.work 0 0 = _
    unfold work
    rw [if_pos ⟨calm.thread, by rw [held_of_unacked (calm.unacked .worker)]; rfl⟩,
      deliver_of_read _ taken (workerMessage.read_write message)]
  · rfl
  · rfl
  · change (Function.update deployment.threads 0 _ 0).running = _
    rw [Function.update_self]
    rfl
  · exact queue_setQueue_self _ _ _
  · exact fun other different => queue_setQueue_of_ne _ different _

private theorem exists_round_worker {deployment : Deployment} (sane : Sane deployment)
    (calm : Calm deployment) (some : (deployment.queue .worker).ready ≠ []) :
    ∃ next, Round .worker deployment next := by
  obtain ⟨⟨platform, faithful⟩, _⟩ := sane
  obtain ⟨body, rest, taken⟩ := WorkQueue.exists_take?_of_ready some
  obtain ⟨message, _, rfl⟩ := List.mem_map.mp (faithful.refines.mem_bodies taken)
  have none : rest.unacked = [] := by rw [WorkQueue.unacked_of_take? taken, calm.unacked]
  obtain ⟨begun, began⟩ := calm.exists_began taken
  have reported : machine.step begun (.report 0 .acknowledged) =
      .some (((begun.setThread 0 (begun.threads 0).release).settleThread 0 .acknowledged).publish
        .workerCallback [WorkerCallback.message.write ((begun.threads 0).callback message)]) := by
    change begun.report 0 .acknowledged = _
    unfold report
    rw [began.running]
  have own : ((begun.setThread 0 (begun.threads 0).release).settleThread 0 .acknowledged).queue
      .worker = rest := by
    unfold settleThread
    rw [queue_setQueue_self]
    change (begun.queue .worker).acknowledge 0 = rest
    rw [began.own, acknowledge_hold none]
  have others : ∀ other, other ≠ .worker →
      ((begun.setThread 0 (begun.threads 0).release).settleThread 0 .acknowledged).queue other =
        deployment.queue other := by
    intro other different
    rw [unacked_settleThread _ _ _ different]
    exact began.kept other different
  have bound : BoundBySource
      ((begun.setThread 0 (begun.threads 0).release).settleThread 0
        .acknowledged).broker.topology := by
    change BoundBySource begun.broker.topology
    rw [began.topology]
    exact faithful.refines.attended.boundBySource
  refine ⟨_, calm.round taken
    ((Machine.Leads.single began.stepped trivial).trans (.single reported trivial)) ?_ ?_ ?_ ?_ ?_⟩
  · change begun.handlers 0 = .idle
    rw [began.handlers, calm.handler]
  · change (Function.update begun.threads 0 _ 0).running = Option.none
    rw [Function.update_self]
    rfl
  · rw [queue_publish_of_source_ne bound (by decide) (by decide), own]
  · intro other different
    rw [unacked_publish, others other different]
  · intro other spared
    rw [queue_publish_of_source_ne bound (by decide) ?_, others other spared.1]
    intro same
    exact spared.2 (congrArg Option.some same.symm)

/-! ### A start message -/

structure Proceeds (deployment next : Deployment) : Prop where
  leads : machine.Leads Event.Closing deployment next
  topology : next.broker.topology = deployment.broker.topology
  threads : next.threads = deployment.threads
  unacked : ∀ name, (next.queue name).unacked = (deployment.queue name).unacked
  kept : ∀ name, name.source ≠ .worker → next.queue name = deployment.queue name

theorem Proceeds.refl (deployment : Deployment) : Proceeds deployment deployment :=
  { leads := .refl deployment
    topology := rfl
    threads := rfl
    unacked := fun _ => rfl
    kept := fun _ _ => rfl }

theorem Proceeds.trans {deployment middle next : Deployment}
    (first : Proceeds deployment middle) (second : Proceeds middle next) :
    Proceeds deployment next :=
  { leads := first.leads.trans second.leads
    topology := second.topology.trans first.topology
    threads := second.threads.trans first.threads
    unacked := fun name => (second.unacked name).trans (first.unacked name)
    kept := fun name other => (second.kept name other).trans (first.kept name other) }

private theorem closing_of_transaction {event : Event} {handler : ℕ} {inner : Orchestrator.Event}
    (transaction : event.transaction? = some (handler, inner)) : event.Closing := by
  cases event with
  | post uuid body => cases transaction
  | trackStart position now settlement => cases transaction
  | _ => trivial

private theorem step_of_transaction {deployment : Deployment} {event : Event} {handler : ℕ}
    {inner : Orchestrator.Event} {system : System}
    (transaction : event.transaction? = some (handler, inner))
    (stepped : delivery.step deployment.system inner = some system) :
    machine.step deployment event =
      some (({ deployment with db := system.db, handlers := system.handlers }.publish .worker
        (system.workerMessages.map workerMessage.write)).giveBackIfIdle handler) := by
  have advanced : deployment.advance handler inner =
      some (({ deployment with db := system.db, handlers := system.handlers }.publish .worker
        (system.workerMessages.map workerMessage.write)).giveBackIfIdle handler) := by
    unfold advance
    rw [show System.step deployment.system inner = some system from stepped]
    rfl
  cases event with
  | createOrchestrator own | createWorkers own strategy uuid scan
  | startEchoWorker own strategy outcome =>
      cases transaction
      exact advanced
  | _ => cases transaction

theorem exists_proceeds {deployment : Deployment} {event : Event} {handler : ℕ}
    {inner : Orchestrator.Event} {system : System} {phase : Handler}
    (bound : BoundBySource deployment.broker.topology)
    (transaction : event.transaction? = some (handler, inner))
    (stepped : delivery.step deployment.system inner = some system)
    (handlers : system.handlers = Function.update deployment.handlers handler phase)
    (busy : phase ≠ .idle) :
    ∃ next, Proceeds deployment next ∧ next.handlers handler = phase := by
  have own : system.handlers handler = phase := by rw [handlers, Function.update_self]
  have goesOn : ∀ next : Deployment, next.handlers = system.handlers →
      next.giveBackIfIdle handler = next := by
    intro next same
    apply if_neg
    rw [same, own]
    exact busy
  have moved := step_of_transaction transaction stepped
  rw [goesOn _ rfl] at moved
  refine ⟨({ deployment with db := system.db, handlers := system.handlers } : Deployment).publish
    .worker (system.workerMessages.map workerMessage.write), ?_, own⟩
  exact
    { leads := .single moved (closing_of_transaction transaction)
      topology := Broker.topology_publishAll ..
      threads := rfl
      unacked := unacked_publish _ _ _
      kept := by
        intro name other
        have same : BoundBySource ({ deployment with
            db := system.db, handlers := system.handlers } : Deployment).broker.topology := bound
        rw [queue_publish_of_source_ne same (by decide) other]
        rfl }

private theorem BoundBySource.proceeds {deployment next : Deployment}
    (bound : BoundBySource deployment.broker.topology) (proceeds : Proceeds deployment next) :
    BoundBySource next.broker.topology := by
  rw [proceeds.topology]
  exact bound

theorem exists_started {deployment : Deployment} {message : EchoStartMessage} {totalWorkers : ℤ}
    {workers : List EchoWorker} (bound : BoundBySource deployment.broker.topology)
    (phase : deployment.handlers 0 = .starting message totalWorkers workers) :
    ∃ next, Proceeds deployment next ∧ next.handlers 0 = .starting message totalWorkers [] := by
  induction workers generalizing deployment with
  | nil => exact ⟨deployment, .refl deployment, phase⟩
  | cons worker rest ih =>
      have waiting : deployment.system.handlers 0 =
          .starting message totalWorkers (worker :: rest) := phase
      obtain ⟨⟨database, published⟩, returned⟩ :=
        startEchoWorker_returns deployment.system.db worker totalWorkers
      have started := (Performs.workerStarted waiting returned).step
      have transaction : Event.transaction? (.startEchoWorker 0 .none .committed) =
          some (0, .startEchoWorker 0 .none .committed) := rfl
      obtain ⟨middle, proceeds, next⟩ := exists_proceeds bound transaction started rfl nofun
      obtain ⟨last, onward, done⟩ := ih (bound.proceeds proceeds) next
      exact ⟨last, proceeds.trans onward, done⟩

theorem exists_newIds (count : ℕ) (db : Database) : ∃ uuid, NewIds uuid count db := by
  have unused : ({id | id ∈ db.workers.rows.map EchoWorker.workerId}ᶜ : Set String).Infinite :=
    (List.finite_toSet _).infinite_compl
  have injective : Function.Injective (fun index => (unused.natEmbedding _ index : String)) :=
    Subtype.val_injective.comp (unused.natEmbedding _).injective
  refine ⟨fun index => unused.natEmbedding _ index, List.nodup_range.map injective, ?_⟩
  intro row member drawn
  obtain ⟨index, _, same⟩ := List.mem_map.mp drawn
  exact (unused.natEmbedding _ index).property (same ▸ List.mem_map_of_mem member)

theorem exists_handled {deployment : Deployment} {message : EchoStartMessage}
    (bound : BoundBySource deployment.broker.topology) (startable : message.Startable)
    (phase : deployment.handlers 0 = .received message) :
    ∃ next totalWorkers, Proceeds deployment next ∧
      next.handlers 0 = .starting message totalWorkers [] := by
  obtain ⟨grid, geoTransform, transform, gridEq⟩ := startable.gridFor
  have received : deployment.system.handlers 0 = .received message := phase
  obtain ⟨created, createdEq⟩ :=
    createOrchestrator_returns deployment.db startable.texts geoTransform
  have orchestrated : EchoService.createOrchestrator deployment.system.db message =
      .ok (geoTransform, created) := by
    unfold EchoService.createOrchestrator
    simp only [transform, bind, Except.bind, system, System.initial, createdEq, pure, Except.pure]
  have first : Event.transaction? (.createOrchestrator 0) =
      some (0, .createOrchestrator 0) := rfl
  obtain ⟨middle, toMiddle, ready⟩ := exists_proceeds bound first
    (Performs.orchestratorCreated received orchestrated).step rfl nofun
  obtain ⟨uuid, ids⟩ := exists_newIds grid.cells.length middle.db
  obtain ⟨⟨workers, inserted⟩, listed⟩ := createWorkers_returns Scan.insertionOrder
    message.processingId message.imageURL ids
  have orchestratedPhase : middle.system.handlers 0 = .orchestrated message geoTransform := ready
  have createdWorkers : EchoService.createWorkers .none uuid .insertionOrder middle.system.db
      message geoTransform = .ok (workers, inserted) := by
    unfold EchoService.createWorkers
    rw [gridEq]
    exact listed
  have second : Event.transaction? (.createWorkers 0 .none uuid .insertionOrder) =
      some (0, .createWorkers 0 .none uuid .insertionOrder) := rfl
  obtain ⟨later, toLater, starting⟩ := exists_proceeds (bound.proceeds toMiddle) second
    (Performs.workersCreated orchestratedPhase createdWorkers).step rfl nofun
  obtain ⟨last, onward, done⟩ :=
    exists_started ((bound.proceeds toMiddle).proceeds toLater) starting
  exact ⟨last, _, (toMiddle.trans toLater).trans onward, done⟩

structure Received (deployment next : Deployment) (message : EchoStartMessage)
    (rest : WorkQueue ℕ Json) : Prop where
  stepped : machine.step deployment (.receive 0 0 .none) = some next
  topology : next.broker.topology = deployment.broker.topology
  threads : next.threads = deployment.threads
  phase : next.handlers 0 = .received message
  own : next.queue .start = rest.hold 0 (Start.message.write message)
  kept : ∀ other, other ≠ .start → next.queue other = deployment.queue other

private theorem Calm.exists_received {deployment : Deployment} (calm : Calm deployment)
    {message : EchoStartMessage} {rest : WorkQueue ℕ Json}
    (taken : (deployment.queue .start).take? 0 = some (Start.message.write message, rest)) :
    ∃ next, Received deployment next message rest := by
  refine ⟨(deployment.setHandler 0 (.received message)).setQueue .start
      (rest.hold 0 (Start.message.write message)), ?_⟩
  constructor
  · change deployment.receive 0 0 .none = _
    unfold receive
    rw [if_pos ⟨calm.handler, by rw [held_of_unacked (calm.unacked .start)]; rfl⟩,
      deliver_of_read _ taken (Start.message.read_write message)]
    rfl
  · rfl
  · rfl
  · exact Function.update_self 0 (Handler.received message) deployment.handlers
  · exact queue_setQueue_self _ _ _
  · exact fun other different => queue_setQueue_of_ne _ different _

private theorem exists_round_start {deployment : Deployment} (sane : Sane deployment)
    (calm : Calm deployment) (some : (deployment.queue .start).ready ≠ []) :
    ∃ next, Round .start deployment next := by
  obtain ⟨⟨platform, faithful⟩, deliverable⟩ := sane
  obtain ⟨body, rest, taken⟩ := WorkQueue.exists_take?_of_ready some
  obtain ⟨message, _, rfl⟩ := List.mem_map.mp (faithful.refines.mem_bodies taken)
  have waiting : Start.message.write message ∈ (deployment.queue .start).pending :=
    (WorkQueue.pending_of_take? taken).mem_iff.mpr List.mem_cons_self
  have none : rest.unacked = [] := by rw [WorkQueue.unacked_of_take? taken, calm.unacked]
  obtain ⟨begun, received⟩ := calm.exists_received taken
  have bound : BoundBySource begun.broker.topology := by
    rw [received.topology]
    exact faithful.refines.attended.boundBySource
  obtain ⟨handled, totalWorkers, proceeds, phase⟩ :=
    exists_handled bound (deliverable.startable message waiting) received.phase
  have done : handled.system.handlers 0 = .starting message totalWorkers [] := phase
  have acknowledged : machine.step handled (.acknowledge 0) =
      .some ((handled.setHandler 0 .idle).setQueue .start
        ((handled.queue .start).acknowledge 0)) := by
    change handled.acknowledge 0 = _
    unfold acknowledge
    rw [show System.step handled.system (.acknowledge 0) = _ from (Performs.acknowledge done).step]
    rfl
  have leads := ((Machine.Leads.single received.stepped trivial).trans proceeds.leads).trans
    (.single acknowledged trivial)
  refine ⟨_, calm.round taken leads ?_ ?_ ?_ ?_ ?_⟩
  · exact Function.update_self 0 Handler.idle handled.handlers
  · change (handled.threads 0).running = Option.none
    rw [proceeds.threads, received.threads, calm.thread]
  · rw [queue_setQueue_self, proceeds.kept .start (by decide), received.own,
      acknowledge_hold none]
  · intro other different
    rw [queue_setQueue_of_ne _ different]
    change (handled.queue other).unacked = _
    rw [proceeds.unacked, received.kept other different]
  · intro other spared
    rw [queue_setQueue_of_ne _ spared.1]
    change handled.queue other = _
    rw [proceeds.kept other ?_, received.kept other spared.1]
    intro same
    exact spared.2 (congrArg Option.some same.symm)

/-! ### All queues -/

private theorem exists_round {deployment : Deployment} (sane : Sane deployment)
    (calm : Calm deployment) {name : QueueName} (listener : name ≠ .deadLetter)
    (some : (deployment.queue name).ready ≠ []) : ∃ next, Round name deployment next := by
  cases name with
  | start => exact exists_round_start sane calm some
  | worker => exact exists_round_worker sane calm some
  | workerCallback => exact exists_round_workerCallback sane calm some
  | merge => exact exists_round_merge sane calm some
  | mergeCallback => exact exists_round_mergeCallback sane calm some
  | trackerStart => exact exists_round_trackerStart sane calm some
  | trackerWorkerCallback => exact exists_round_trackerWorkerCallback sane calm some
  | trackerMergeCallback => exact exists_round_trackerMergeCallback sane calm some
  | deadLetter => exact absurd rfl listener

/-- A queue is emptied, and the queues that its listener does not answer to stay as they are. -/
theorem exists_emptied {deployment : Deployment} (sane : Sane deployment)
    (calm : Calm deployment) {name : QueueName} (listener : name ≠ .deadLetter) :
    ∃ next, machine.Leads Event.Closing deployment next ∧ (Sane next ∧ Calm next) ∧
      (∀ other, name.Spares other → next.queue other = deployment.queue other) ∧
      (next.queue name).ready.length = 0 := by
  apply Machine.exists_leads_of_decreasing (fun state => Sane state ∧ Calm state)
    (fun state => (state.queue name).ready.length)
    (fun state next => ∀ other, name.Spares other → next.queue other = state.queue other)
  · exact fun _ _ _ => rfl
  · intro first second third earlier later other spared
    rw [later other spared, earlier other spared]
  · rintro state ⟨stateSane, stateCalm⟩ ready
    obtain ⟨next, round⟩ := exists_round stateSane stateCalm listener
      (fun none => ready (List.length_eq_zero_iff.mpr none))
    exact ⟨next, round.leads, ⟨stateSane.leads round.leads, round.calm⟩, round.kept,
      round.shorter⟩
  · exact ⟨sane, calm⟩

private theorem exists_drained {deployment : Deployment} (sane : Sane deployment)
    (calm : Calm deployment) :
    ∃ next, machine.Leads Event.Closing deployment next ∧ Quiescent next := by
  have phase : ∀ name ∈ QueueName.drainOrder, ∀ state, Sane state ∧ Calm state →
      ∃ finish, machine.Leads Event.Closing state finish ∧ (Sane finish ∧ Calm finish) ∧
        (finish.queue name).ready = [] ∧
        ∀ earlier, name.Spares earlier → (state.queue earlier).ready = [] →
          (finish.queue earlier).ready = [] := by
    rintro name member state ⟨stateSane, stateCalm⟩
    have listener : name ≠ .deadLetter := by
      rintro rfl
      exact absurd member (by decide)
    obtain ⟨next, leads, kept, spared, done⟩ := exists_emptied stateSane stateCalm listener
    refine ⟨next, leads, kept, List.length_eq_zero_iff.mp done, ?_⟩
    intro earlier spares emptied
    rw [spared earlier spares]
    exact emptied
  obtain ⟨next, leads, ⟨nextSane, nextCalm⟩, emptied⟩ := Machine.exists_leads_of_pairwise
    (fun state => Sane state ∧ Calm state) (fun name state => (state.queue name).ready = [])
    phase QueueName.pairwise_drainOrder ⟨sane, calm⟩
  refine ⟨next, leads, ?_⟩
  intro name
  apply (WorkQueue.pending_eq_nil_iff _).mpr
  refine ⟨?_, nextCalm.unacked name⟩
  by_cases listener : name = .deadLetter
  · obtain ⟨⟨platform, faithful⟩, _⟩ := nextSane
    rw [listener]
    exact ((WorkQueue.pending_eq_nil_iff _).mp (pending_deadLetter faithful.refines)).1
  · exact emptied name (QueueName.mem_drainOrder listener)

/-! ### Whoever holds a delivery gives it back -/

theorem exists_released {deployment : Deployment} (sane : Sane deployment) (name : QueueName) :
    ∃ next, machine.Leads Event.Closing deployment next ∧ Sane next ∧
      (next.handlers = deployment.handlers ∧ next.threads = deployment.threads ∧
        ∀ other, (deployment.queue other).unacked = [] → (next.queue other).unacked = []) ∧
      (next.queue name).unacked.length = 0 := by
  apply Machine.exists_leads_of_decreasing Sane (fun state => (state.queue name).unacked.length)
    (fun state next => next.handlers = state.handlers ∧ next.threads = state.threads ∧
      ∀ other, (state.queue other).unacked = [] → (next.queue other).unacked = [])
  · exact fun _ => ⟨rfl, rfl, fun _ none => none⟩
  · intro first second third earlier later
    exact ⟨later.1.trans earlier.1, later.2.1.trans earlier.2.1,
      fun other none => later.2.2 other (earlier.2.2 other none)⟩
  · intro state stateSane held
    obtain ⟨delivery, member⟩ := List.exists_mem_of_length_pos (Nat.pos_of_ne_zero held)
    have stepped : machine.step state (.lose name delivery.1) =
        some (state.lose name delivery.1) := rfl
    have leads : machine.Leads Event.Closing state (state.lose name delivery.1) :=
      .single stepped trivial
    refine ⟨_, leads, stateSane.leads leads, ⟨rfl, rfl, ?_⟩, ?_⟩
    · intro other none
      unfold lose
      by_cases own : other = name
      · subst own
        rw [none] at member
        cases member
      · rw [queue_setQueue_of_ne _ own]
        exact none
    · unfold lose
      rw [queue_setQueue_self]
      exact (state.queue name).length_unacked_giveBack_lt member
  · exact sane

/-- The first handler and the first thread begin anew, and the other deliveries are lost. -/
theorem exists_calm {deployment : Deployment} (sane : Sane deployment) :
    ∃ next, machine.Leads Event.Closing deployment next ∧ Sane next ∧ Calm next := by
  have stopped : machine.step deployment (.stop 0) = some (deployment.stop 0) := rfl
  have restarted : machine.step (deployment.stop 0) (.restart 0) =
      some ((deployment.stop 0).restart 0) := rfl
  have begun : machine.Leads Event.Closing deployment ((deployment.stop 0).restart 0) :=
    (Machine.Leads.single stopped trivial).trans (.single restarted trivial)
  obtain ⟨middle, toMiddle, middleSane, ⟨handlers, threads, _⟩, starting⟩ :=
    exists_released (sane.leads begun) .start
  obtain ⟨next, toNext, nextSane, ⟨nextHandlers, nextThreads, kept⟩, working⟩ :=
    exists_released middleSane .worker
  refine ⟨next, (begun.trans toMiddle).trans toNext, nextSane, ?_⟩
  constructor
  · rw [nextHandlers, handlers]
    exact Function.update_self 0 Handler.idle deployment.handlers
  · rw [nextThreads, threads]
    change (Function.update deployment.threads 0 WorkerThread.new 0).running = none
    rw [Function.update_self]
    rfl
  · intro name
    by_cases start : name = .start
    · rw [start]
      exact kept .start (List.length_eq_zero_iff.mp starting)
    · by_cases worker : name = .worker
      · rw [worker]
        exact List.length_eq_zero_iff.mp working
      · exact nextSane.attended.atomic name start worker

/-! ### When the queues can be emptied -/

/-- No message is pending after some run without another request. -/
def Drains (deployment : Deployment) : Prop :=
  ∃ following next, (∀ event ∈ following, ∀ uuid body, event ≠ .post uuid body) ∧
    machine.Runs deployment following next ∧ Quiescent next

theorem Sane.drains {deployment : Deployment} (sane : Sane deployment) : Drains deployment := by
  obtain ⟨middle, toMiddle, middleSane, calm⟩ := exists_calm sane
  obtain ⟨next, toNext, quiescent⟩ := exists_drained middleSane calm
  obtain ⟨following, closing, onward⟩ := toMiddle.trans toNext
  refine ⟨following, next, ?_, onward, quiescent⟩
  rintro event member uuid body rfl
  exact closing _ member

theorem sane_of_runs {events : List Event} {deployment : Deployment}
    (reached : machine.Runs initial events deployment) (deliverable : Deliverable deployment) :
    Sane deployment :=
  ⟨faithful_of_runs reached, deliverable⟩

/-- Whatever happens after a reachable state, its queues can be emptied only if every pending
start message has a grid, and none is pending for the tracker that has a row for it; and if
so, they can be emptied without another request. -/
theorem drains_iff_deliverable {events : List Event} {deployment : Deployment}
    (reached : machine.Runs initial events deployment) :
    ((∃ following next, machine.Runs deployment following next ∧ Quiescent next) ↔
      Deliverable deployment) ∧ (Deliverable deployment → Drains deployment) := by
  have drains : Deliverable deployment → Drains deployment :=
    fun deliverable => (sane_of_runs reached deliverable).drains
  refine ⟨⟨?_, ?_⟩, drains⟩
  · rintro ⟨following, next, onward, quiescent⟩
    obtain ⟨platform, faithful⟩ := faithful_of_runs reached
    exact quiescent.deliverable.of_runs faithful onward
  · intro deliverable
    obtain ⟨following, next, _, onward, quiescent⟩ := drains deliverable
    exact ⟨following, next, onward, quiescent⟩

namespace Sample

open Orchestrator.Sample (startMessage)

/-- The tracker has handled the start message, and its acknowledgement is lost. -/
def trackedTwice : List Event :=
  [.connect .orchestrator, .connect .worker, .connect .merger, .connect .tracker,
    .post "p" (Controller.ProcessingController.bodyOf startMessage), .trackStart 0 5 .givenBack]

end Sample

theorem drains_iff_deliverable_trackedTwice :
    ∃ deployment, machine.Runs initial Sample.trackedTwice deployment ∧
      ∀ following next, machine.Runs deployment following next → ¬Quiescent next := by
  have observed : (machine.run initial Sample.trackedTwice).map (fun deployment =>
      ((deployment.queue .trackerStart).ready.map Start.message.read,
        (deployment.trackers.find? Orchestrator.Sample.startMessage.processingId).isSome)) =
      some ([some Orchestrator.Sample.startMessage], true) := by
    decide +kernel
  obtain ⟨deployment, reached, values⟩ := Option.map_eq_some_iff.mp observed
  obtain ⟨bodies, tracked⟩ := Prod.mk.inj values
  obtain ⟨body, ready, readable⟩ := List.map_eq_singleton_iff.mp bodies
  refine ⟨deployment, reached, ?_⟩
  intro following next onward quiescent
  have deliverable := (drains_iff_deliverable reached).1.mp ⟨following, next, onward, quiescent⟩
  have pending : body ∈ (deployment.queue .trackerStart).pending :=
    List.mem_append_left _ (ready ▸ List.mem_singleton_self body)
  obtain ⟨platform, faithful⟩ := faithful_of_runs reached
  obtain ⟨_, rfl⟩ :=
    mem_of_read Start.message (faithful.refines.carried .trackerStart body pending) readable
  rw [deliverable.untracked _ pending] at tracked
  cases tracked

theorem requestsWhenConnected_append {events following : List Event}
    (every : machine.EveryStep RequestsWhenConnected initial events)
    (none : ∀ event ∈ following, ∀ uuid body, event ≠ .post uuid body) :
    machine.EveryStep RequestsWhenConnected initial (events ++ following) := by
  have all : ∀ event ∈ following, ∀ state, RequestsWhenConnected state event := by
    intro event member state accepted
    cases event with
    | post uuid body => exact absurd rfl (none _ member uuid body)
    | _ => cases accepted
  exact (machine.everyStep_append _ _ _ _).mpr
    ⟨every, fun middle _ => machine.everyStep_of_forall middle all⟩

end Deployment

end EchoProcessing
