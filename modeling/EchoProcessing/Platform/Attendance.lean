/-
Who holds a delivery.

A handler or a worker thread that holds a delivery is at work on what its body reads as,
so an acknowledgement is one of the message that was worked on. The other listeners end
their delivery in the step that begins it.
-/

import EchoProcessing.Platform.Deployment

namespace EchoProcessing

open Messaging Orchestrator

namespace Orchestrator

def Handler.message? : Handler → Option EchoStartMessage
  | .idle => none
  | .received message => some message
  | .orchestrated message _ => some message
  | .starting message _ _ => some message

theorem Performs.handlers {system next : System} {event : Event} {handler : ℕ}
    (performs : Performs system event next) (own : event.handler? = some handler) :
    ∃ phase, next.handlers = Function.update system.handlers handler phase ∧
      (phase = .idle ∨ phase.message? = (system.handlers handler).message? ∨
        ∃ message, event = .receive handler message) := by
  cases performs with
  | receive idle =>
      cases own
      exact ⟨_, rfl, Or.inr (Or.inr ⟨_, rfl⟩)⟩
  | orchestratorCreated phase returned
  | workersCreated phase returned
  | workerStarted phase returned =>
      cases own
      exact ⟨_, rfl, Or.inr (Or.inl (by rw [phase]; rfl))⟩
  | orchestratorRefused phase returned
  | workersRefused phase returned
  | workerRefused phase returned
  | workerRolledBack phase returned
  | acknowledge phase
  | stop =>
      cases own
      exact ⟨_, rfl, Or.inl rfl⟩
  | work published
  | callbackRefused published returned
  | callbackReturned published returned
  | callbackRolledBack published returned => cases own

end Orchestrator

namespace Deployment

@[simp]
theorem queue_setQueue_self (deployment : Deployment) (name : QueueName)
    (content : WorkQueue ℕ Json) : (deployment.setQueue name content).queue name = content :=
  deployment.broker.queues_setQueue_self name content

theorem queue_setQueue_of_ne (deployment : Deployment) {name other : QueueName}
    (different : other ≠ name) (content : WorkQueue ℕ Json) :
    (deployment.setQueue name content).queue other = deployment.queue other :=
  deployment.broker.queues_setQueue_of_ne different content

theorem unacked_publish (deployment : Deployment) (key : RoutingKey) (bodies : List Json)
    (name : QueueName) :
    ((deployment.publish key bodies).queue name).unacked = (deployment.queue name).unacked :=
  deployment.broker.unacked_publishAll _ bodies name

theorem unacked_setQueue (deployment : Deployment) {name : QueueName}
    {content : WorkQueue ℕ Json} (same : content.unacked = (deployment.queue name).unacked)
    (other : QueueName) :
    ((deployment.setQueue name content).queue other).unacked =
      (deployment.queue other).unacked := by
  by_cases own : other = name
  · subst own
    rw [queue_setQueue_self, same]
  · rw [queue_setQueue_of_ne _ own]

private theorem unacked_settle (deployment : Deployment) {name : QueueName} {position : ℕ}
    {body : Json}
    {rest : WorkQueue ℕ Json} (taken : (deployment.queue name).take? position = some (body, rest))
    (settlement : Settlement) (other : QueueName) :
    ((deployment.settle name rest settlement).queue other).unacked =
      (deployment.queue other).unacked := by
  cases settlement with
  | acknowledged => exact deployment.unacked_setQueue (WorkQueue.unacked_of_take? taken) other
  | givenBack => rfl

private theorem unacked_reject (deployment : Deployment) {name : QueueName} {position : ℕ}
    {body : Json}
    {rest : WorkQueue ℕ Json} (taken : (deployment.queue name).take? position = some (body, rest))
    (other : QueueName) :
    ((deployment.reject name body rest).queue other).unacked =
      (deployment.queue other).unacked := by
  have removed := deployment.unacked_setQueue (WorkQueue.unacked_of_take? taken) other
  unfold reject
  split
  · exact ((deployment.setQueue name rest).broker.unacked_publishAll _ [body] other).trans removed
  · exact removed

def startTask (deployment : Deployment) (handler : ℕ) : Option EchoStartMessage :=
  (deployment.handlers handler).message?

def workerTask (deployment : Deployment) (thread : ℕ) : Option EchoWorkerMessage :=
  (deployment.threads thread).running

/-- The deliveries are those of the handlers and threads that are at work on them; the other
listeners end theirs in the same step. The broker knows what the services have declared. -/
structure Attended (deployment : Deployment) : Prop where
  declared : ∃ services,
    Topology.DeclaredBy Service.declaration services deployment.broker.topology
  starting : (deployment.queue .start).HeldBy Start.message.read deployment.startTask
  working : (deployment.queue .worker).HeldBy workerMessage.read deployment.workerTask
  atomic : ∀ name, name ≠ .start → name ≠ .worker → (deployment.queue name).unacked = []

theorem attended_initial : Attended initial :=
  { declared := ⟨[], Topology.declaredBy_empty _⟩
    starting := WorkQueue.heldBy_empty _ _
    working := WorkQueue.heldBy_empty _ _
    atomic := fun _ _ _ => rfl }

theorem Attended.of_subset {deployment next : Deployment} (attended : Attended deployment)
    (topology : next.broker.topology = deployment.broker.topology)
    (handlers : next.handlers = deployment.handlers) (threads : next.threads = deployment.threads)
    (kept : ∀ name, ∀ delivery ∈ (next.queue name).unacked,
      delivery ∈ (deployment.queue name).unacked) : Attended next :=
  { declared := topology ▸ attended.declared
    starting := by
      have tasks : next.startTask = deployment.startTask := by
        unfold startTask
        rw [handlers]
      rw [tasks]
      exact attended.starting.of_subset (fun delivery member => ⟨kept _ delivery member, rfl⟩)
    working := by
      have tasks : next.workerTask = deployment.workerTask := by
        unfold workerTask
        rw [threads]
      rw [tasks]
      exact attended.working.of_subset (fun delivery member => ⟨kept _ delivery member, rfl⟩)
    atomic := by
      intro name notStart notWorker
      have none := attended.atomic name notStart notWorker
      apply List.eq_nil_iff_forall_not_mem.mpr
      intro delivery member
      have old := kept name delivery member
      rw [none] at old
      cases old }

theorem Attended.of_unacked_eq {deployment next : Deployment} (attended : Attended deployment)
    (topology : next.broker.topology = deployment.broker.topology)
    (handlers : next.handlers = deployment.handlers) (threads : next.threads = deployment.threads)
    (same : ∀ name, (next.queue name).unacked = (deployment.queue name).unacked) :
    Attended next :=
  attended.of_subset topology handlers threads (fun name _ member => same name ▸ member)

theorem Attended.setStart {deployment next : Deployment} (attended : Attended deployment)
    (topology : next.broker.topology = deployment.broker.topology)
    (threads : next.threads = deployment.threads)
    (same : ∀ name, name ≠ .start → (next.queue name).unacked = (deployment.queue name).unacked)
    (starting : (next.queue .start).HeldBy Start.message.read next.startTask) : Attended next :=
  { declared := topology ▸ attended.declared
    starting := starting
    working := by
      have tasks : next.workerTask = deployment.workerTask := by
        unfold workerTask
        rw [threads]
      rw [tasks]
      exact attended.working.of_unacked_eq (same .worker nofun)
    atomic := fun name notStart notWorker => (same name notStart).trans
      (attended.atomic name notStart notWorker) }

private theorem Attended.setWorker {deployment next : Deployment} (attended : Attended deployment)
    (topology : next.broker.topology = deployment.broker.topology)
    (handlers : next.handlers = deployment.handlers)
    (same : ∀ name, name ≠ .worker → (next.queue name).unacked = (deployment.queue name).unacked)
    (working : (next.queue .worker).HeldBy workerMessage.read next.workerTask) : Attended next :=
  { declared := topology ▸ attended.declared
    starting := by
      have tasks : next.startTask = deployment.startTask := by
        unfold startTask
        rw [handlers]
      rw [tasks]
      exact attended.starting.of_unacked_eq (same .start nofun)
    working := working
    atomic := fun name notStart notWorker => (same name notWorker).trans
      (attended.atomic name notStart notWorker) }

private theorem startTask_of_update {deployment next : Deployment} {handler : ℕ} {phase : Handler}
    (handlers : next.handlers = Function.update deployment.handlers handler phase) :
    next.startTask handler = phase.message? ∧
      ∀ other, other ≠ handler → next.startTask other = deployment.startTask other := by
  unfold startTask
  rw [handlers]
  refine ⟨by rw [Function.update_self], ?_⟩
  intro other different
  rw [Function.update_of_ne different]

private theorem workerTask_of_update {deployment next : Deployment} {thread : ℕ}
    {content : WorkerThread}
    (threads : next.threads = Function.update deployment.threads thread content) :
    next.workerTask thread = content.running ∧
      ∀ other, other ≠ thread → next.workerTask other = deployment.workerTask other := by
  unfold workerTask
  rw [threads]
  refine ⟨by rw [Function.update_self], ?_⟩
  intro other different
  rw [Function.update_of_ne different]

theorem heldBy_giveBackIfIdle {deployment next : Deployment} {handler : ℕ} {phase : Handler}
    (held : (next.queue .start).HeldBy Start.message.read deployment.startTask)
    (handlers : next.handlers = Function.update deployment.handlers handler phase)
    (kept : phase = .idle ∨ phase.message? = (deployment.handlers handler).message?) :
    ((next.giveBackIfIdle handler).queue .start).HeldBy Start.message.read
      (next.giveBackIfIdle handler).startTask := by
  obtain ⟨own, others⟩ := startTask_of_update handlers
  unfold giveBackIfIdle
  split
  · rw [queue_setQueue_self]
    exact held.giveBack others
  · rename_i busy
    have message := kept.resolve_left
      (fun idle => busy (by rw [handlers, idle, Function.update_self]))
    have same : next.startTask = deployment.startTask := by
      funext other
      by_cases here : other = handler
      · rw [here, own, message]
        rfl
      · exact others other here
    rw [same]
    exact held

private theorem unacked_giveBackIfIdle (deployment : Deployment) (handler : ℕ) {name : QueueName}
    (other : name ≠ .start) :
    ((deployment.giveBackIfIdle handler).queue name) = deployment.queue name := by
  unfold giveBackIfIdle
  split
  · exact queue_setQueue_of_ne _ other _
  · rfl

private theorem topology_giveBackIfIdle (deployment : Deployment) (handler : ℕ) :
    (deployment.giveBackIfIdle handler).broker.topology = deployment.broker.topology := by
  unfold giveBackIfIdle
  split <;> rfl

theorem threads_giveBackIfIdle (deployment : Deployment) (handler : ℕ) :
    (deployment.giveBackIfIdle handler).threads = deployment.threads := by
  unfold giveBackIfIdle
  split <;> rfl

theorem topology_settle (deployment : Deployment) (name : QueueName) (rest : WorkQueue ℕ Json)
    (settlement : Settlement) :
    (deployment.settle name rest settlement).broker.topology = deployment.broker.topology := by
  cases settlement <;> rfl

theorem handler?_of_transaction {event : Event} {handler : ℕ} {inner : Orchestrator.Event}
    (transaction : event.transaction? = some (handler, inner)) :
    inner.handler? = some handler ∧ ∀ message, inner ≠ .receive handler message := by
  cases event with
  | createOrchestrator own | createWorkers own strategy uuid scan
  | startEchoWorker own strategy outcome =>
      obtain ⟨rfl, rfl⟩ := Prod.mk.inj (Option.some.inj transaction)
      refine ⟨rfl, fun message same => ?_⟩
      cases same
  | _ => cases transaction

theorem handlers_of_transaction {deployment : Deployment} {event : Event} {handler : ℕ}
    {inner : Orchestrator.Event} {next : System}
    (transaction : event.transaction? = some (handler, inner))
    (stepped : delivery.step deployment.system inner = some next) :
    ∃ phase, next.handlers = Function.update deployment.handlers handler phase ∧
      (phase = .idle ∨ phase.message? = (deployment.handlers handler).message?) := by
  obtain ⟨own, notReceived⟩ := handler?_of_transaction transaction
  obtain ⟨phase, handlers, kept⟩ := (step_performs stepped).handlers own
  refine ⟨phase, handlers, ?_⟩
  rcases kept with idle | same | ⟨message, received⟩
  · exact Or.inl idle
  · exact Or.inr same
  · exact absurd received (notReceived message)

theorem unacked_settleThread (deployment : Deployment) (thread : ℕ) (settlement : Settlement)
    {name : QueueName} (other : name ≠ .worker) :
    (deployment.settleThread thread settlement).queue name = deployment.queue name := by
  cases settlement <;> exact queue_setQueue_of_ne _ other _

private theorem heldBy_settleThread {deployment next : Deployment} {thread : ℕ}
    (settlement : Settlement)
    (held : (next.queue .worker).HeldBy workerMessage.read deployment.workerTask)
    {content : WorkerThread}
    (threads : next.threads = Function.update deployment.threads thread content) :
    ((next.settleThread thread settlement).queue .worker).HeldBy workerMessage.read
      (next.settleThread thread settlement).workerTask := by
  obtain ⟨_, others⟩ := workerTask_of_update threads
  cases settlement with
  | acknowledged =>
      unfold settleThread
      rw [queue_setQueue_self]
      exact held.acknowledge others
  | givenBack =>
      unfold settleThread
      rw [queue_setQueue_self]
      exact held.giveBack others

theorem Attended.endThread {deployment : Deployment} (attended : Attended deployment)
    (thread : ℕ) (content : WorkerThread) (settlement : Settlement) :
    Attended ((deployment.setThread thread content).settleThread thread settlement) := by
  have working : ((deployment.setThread thread content).queue .worker).HeldBy
      workerMessage.read deployment.workerTask := attended.working
  apply attended.setWorker
  · cases settlement <;> rfl
  · cases settlement <;> rfl
  · intro name other
    rw [unacked_settleThread _ _ _ other]
    rfl
  · exact heldBy_settleThread settlement working rfl

theorem Attended.publish {deployment : Deployment} (attended : Attended deployment)
    (key : RoutingKey) (bodies : List Json) : Attended (deployment.publish key bodies) :=
  attended.of_unacked_eq (Broker.topology_publishAll ..) rfl rfl
    (deployment.unacked_publish key bodies)

theorem Attended.settle {deployment : Deployment} (attended : Attended deployment)
    {name : QueueName} {position : ℕ} {body : Json} {rest : WorkQueue ℕ Json}
    (taken : (deployment.queue name).take? position = some (body, rest))
    (settlement : Settlement) : Attended (deployment.settle name rest settlement) :=
  attended.of_unacked_eq (deployment.topology_settle name rest settlement)
    (by cases settlement <;> rfl) (by cases settlement <;> rfl)
    (deployment.unacked_settle taken settlement)

theorem Attended.setDatabase {deployment : Deployment} (attended : Attended deployment)
    (db : Database) : Attended { deployment with db := db } :=
  attended.of_unacked_eq rfl rfl rfl (fun _ => rfl)

private theorem Attended.setTrackers {deployment : Deployment} (attended : Attended deployment)
    (trackers : Tracking.Trackers) : Attended { deployment with trackers := trackers } :=
  attended.of_unacked_eq rfl rfl rfl (fun _ => rfl)

theorem Attended.freeHandler {deployment : Deployment} (attended : Attended deployment)
    (handler : ℕ) {content : WorkQueue ℕ Json}
    (kept : ∀ delivery ∈ content.unacked,
      delivery ∈ (deployment.queue .start).unacked ∧ delivery.1 ≠ handler) :
    Attended ((deployment.setHandler handler .idle).setQueue .start content) := by
  apply attended.setStart
  · rfl
  · rfl
  · intro name other
    rw [queue_setQueue_of_ne _ other]
    rfl
  · have task : ∀ other, other ≠ handler →
        ((deployment.setHandler handler .idle).setQueue .start content).startTask other =
          deployment.startTask other := (startTask_of_update rfl).2
    rw [queue_setQueue_self]
    apply attended.starting.of_subset
    intro delivery member
    obtain ⟨old, different⟩ := kept delivery member
    exact ⟨old, task _ different⟩

theorem Transition.attended {deployment next : Deployment} {event : Event}
    (transition : Transition deployment event next) (attended : Attended deployment) :
    Attended next := by
  cases transition with
  | @connected service topology declared =>
      obtain ⟨services, known⟩ := attended.declared
      obtain ⟨admitted, rfl⟩ := (Topology.declare?_eq_some_iff _ _ _).mp declared
      exact { attended with declared := ⟨_, known.add admitted⟩ }
  | @posted uuid body entity message echoed fresh =>
      have drawn : Attended { deployment with drawn := deployment.drawn ++ [uuid] } :=
        attended.of_unacked_eq rfl rfl rfl (fun _ => rfl)
      exact drawn.publish _ _
  | thrown => exact attended
  | rejected taken unreadable =>
      apply attended.of_unacked_eq _ _ _ (deployment.unacked_reject taken)
      all_goals
        unfold reject
        split <;> rfl
  | @received handler position strategy body rest message idle free taken readable =>
      apply attended.setStart
      · rfl
      · rfl
      · intro name other
        rw [queue_setQueue_of_ne _ other]
        rfl
      · rw [queue_setQueue_self]
        have waiting := attended.starting.of_unacked_eq (WorkQueue.unacked_of_take? taken)
        have phase : ((deployment.setHandler handler (.received message)).setQueue .start
            (rest.hold handler body)).handlers =
            Function.update deployment.handlers handler (.received message) := rfl
        obtain ⟨own, others⟩ := startTask_of_update phase
        apply waiting.hold _ readable own others
        unfold startTask
        rw [idle]
        rfl
  | @advanced event handler inner system transaction stepped =>
      obtain ⟨phase, handlers, kept⟩ := handlers_of_transaction transaction stepped
      apply attended.setStart
      · rw [topology_giveBackIfIdle]
        exact Broker.topology_publishAll ..
      · exact threads_giveBackIfIdle _ _
      · intro name other
        rw [unacked_giveBackIfIdle _ _ other]
        exact unacked_publish _ _ _ name
      · have held : ((publish { deployment with db := system.db, handlers := system.handlers }
            .worker (system.workerMessages.map workerMessage.write)).queue .start).HeldBy
              Start.message.read deployment.startTask :=
          attended.starting.of_unacked_eq (unacked_publish _ _ _ _)
        exact heldBy_giveBackIfIdle held handlers kept
  | @acknowledged handler system stepped =>
      cases step_performs stepped with
      | acknowledge phase =>
          exact attended.freeHandler handler
            (fun delivery => (WorkQueue.mem_unacked_acknowledge _ _ delivery).mp)
  | @stopped handler =>
      exact attended.freeHandler handler
        (fun delivery => (WorkQueue.mem_unacked_giveBack _ _ delivery).mp)
  | @began thread position body rest message free unheld taken readable =>
      apply attended.setWorker
      · rfl
      · rfl
      · intro name other
        rw [queue_setQueue_of_ne _ other]
        rfl
      · rw [queue_setQueue_self]
        have waiting := attended.working.of_unacked_eq (WorkQueue.unacked_of_take? taken)
        have threads : ((deployment.setThread thread (.receiveMessage message)).setQueue .worker
            (rest.hold thread body)).threads =
            Function.update deployment.threads thread (.receiveMessage message) := rfl
        obtain ⟨own, others⟩ := workerTask_of_update threads
        exact waiting.hold free readable own others
  | reported running => exact (attended.endThread _ _ _).publish _ _
  | failed => exact attended.endThread _ _ _
  | restarted => exact attended.endThread _ _ _
  | @lost name consumer =>
      apply attended.of_subset
      · rfl
      · rfl
      · rfl
      · intro other delivery member
        unfold lose at member
        by_cases own : other = name
        · subst own
          rw [queue_setQueue_self] at member
          exact ((WorkQueue.mem_unacked_giveBack _ _ _).mp member).1
        · rw [queue_setQueue_of_ne _ own] at member
          exact member
  | @calledBack position strategy scan settlement body rest message database published taken
      readable returned =>
      exact ((attended.setDatabase database).settle taken settlement).publish _ _
  | rolledBack taken readable returned => exact attended.publish _ _
  | merged taken readable => exact (attended.settle taken _).publish _ _
  | mergeHandled taken readable => exact attended.settle taken _
  | @startTracked position now settlement body rest payload trackers taken readable returned =>
      exact (attended.setTrackers trackers).settle taken settlement
  | @workerTracked position now settlement body rest payload trackers taken readable returned =>
      exact (attended.setTrackers trackers).settle taken settlement
  | @mergeTracked position now settlement body rest payload taken readable =>
      exact (attended.setTrackers (Tracking.TrackerService.finishProcessing deployment.trackers
        payload.processingId now)).settle taken settlement

end Deployment

end EchoProcessing
