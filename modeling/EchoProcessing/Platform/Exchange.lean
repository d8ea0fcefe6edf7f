/-
What a step of the deployed services does with the messages.

The platform keeps every message that was ever published, the deployment only what is
pending. They are related by what is in a queue: each body there was published with the
key of the queue. A step takes some bodies out of one queue and publishes some with one key.
-/

import EchoProcessing.Platform.Attendance
import EchoProcessing.Platform.RoundTrip

namespace EchoProcessing

open Messaging Orchestrator

namespace Orchestrator

/-- What a system publishes and keeps when it does a transaction that another one does. -/
structure Repeats (system next other image : System) : Prop where
  db : image.db = next.db
  handlers : image.handlers = next.handlers
  callbackMessages : image.callbackMessages = other.callbackMessages
  mergeMessages : image.mergeMessages = other.mergeMessages
  workerMessages : ∃ sent, next.workerMessages = system.workerMessages ++ sent ∧
    image.workerMessages = other.workerMessages ++ sent

theorem Performs.repeated {system next other : System} {event : Event} {handler : ℕ}
    (performs : Performs system event next) (own : event.handler? = some handler)
    (db : other.db = system.db) (handlers : other.handlers = system.handlers) :
    ∃ image, delivery.step other event = some image ∧ Repeats system next other image := by
  have nothing : ∀ messages : List EchoWorkerMessage, messages = messages ++ [] :=
    fun messages => (List.append_nil messages).symm
  have set : ∀ handler phase,
      Function.update other.handlers handler phase =
        Function.update system.handlers handler phase := by
    intro handler phase
    rw [handlers]
  cases performs with
  | receive idle =>
      rw [← handlers] at idle
      exact ⟨_, (Performs.receive idle).step, db, set _ _, rfl, rfl, [], nothing _, nothing _⟩
  | orchestratorRefused phase returned =>
      rw [← handlers] at phase
      rw [← db] at returned
      exact ⟨_, (Performs.orchestratorRefused phase returned).step, db, set _ _, rfl, rfl, [],
        nothing _, nothing _⟩
  | orchestratorCreated phase returned =>
      rw [← handlers] at phase
      rw [← db] at returned
      exact ⟨_, (Performs.orchestratorCreated phase returned).step, rfl, set _ _, rfl, rfl, [],
        nothing _, nothing _⟩
  | workersRefused phase returned =>
      rw [← handlers] at phase
      rw [← db] at returned
      exact ⟨_, (Performs.workersRefused phase returned).step, db, set _ _, rfl, rfl, [],
        nothing _, nothing _⟩
  | workersCreated phase returned =>
      rw [← handlers] at phase
      rw [← db] at returned
      exact ⟨_, (Performs.workersCreated phase returned).step, rfl, set _ _, rfl, rfl, [],
        nothing _, nothing _⟩
  | workerRefused phase returned =>
      rw [← handlers] at phase
      rw [← db] at returned
      exact ⟨_, (Performs.workerRefused phase returned).step, db, set _ _, rfl, rfl, [],
        nothing _, nothing _⟩
  | workerStarted phase returned =>
      rw [← handlers] at phase
      rw [← db] at returned
      exact ⟨_, (Performs.workerStarted phase returned).step, rfl, set _ _, rfl, rfl, _, rfl, rfl⟩
  | workerRolledBack phase returned =>
      rw [← handlers] at phase
      rw [← db] at returned
      exact ⟨_, (Performs.workerRolledBack phase returned).step, db, set _ _, rfl, rfl, _, rfl,
        rfl⟩
  | acknowledge phase =>
      rw [← handlers] at phase
      exact ⟨_, (Performs.acknowledge phase).step, db, set _ _, rfl, rfl, [], nothing _,
        nothing _⟩
  | stop => exact ⟨_, Performs.stop.step, db, set _ _, rfl, rfl, [], nothing _, nothing _⟩
  | work published
  | callbackRefused published returned
  | callbackReturned published returned
  | callbackRolledBack published returned => cases own

open EchoWorkerRepository EchoWorkerService

theorem Transition.starting_of_sent {system next : System} {event : Event} {handler : ℕ}
    (transition : Transition system event next) (own : event.handler? = some handler)
    (sent : next.workerMessages ≠ system.workerMessages) :
    ∃ message totalWorkers workers,
      system.handlers handler = .starting message totalWorkers workers := by
  cases transition with
  | startCommitted phase initial
  | startRolledBack phase initial =>
      cases own
      exact ⟨_, _, _, phase⟩
  | _ => exact absurd rfl sent

/-- A row that a transaction for a start message leaves in PROCESSING was there before, or
its worker message has just been published. -/
theorem Transition.restarted {system next : System} {event : Event} {handler : ℕ}
    (transition : Transition system event next) (own : event.handler? = some handler)
    {row : EchoWorker} (member : row ∈ next.db.workers.rows)
    (processing : row.state = .processing) :
    row ∈ system.db.workers.rows ∨
      ∃ message ∈ next.workerMessages, message.workerId = row.workerId := by
  cases transition with
  | orchestratorInserted phase transform missing sameWorkers rowKey rows =>
      exact Or.inl (sameWorkers ▸ member)
  | workersInserted phase gridEq absent workersEq sameOrchestrators rows =>
      rcases List.mem_append.mp (rows ▸ member) with old | new
      · exact Or.inl old
      · rw [(mem_newWorkers (workersEq ▸ new)).2] at processing
        cases processing
  | startCommitted phase initial =>
      rcases KeyedTable.of_mem_save member with rfl | ⟨old, _⟩
      · exact Or.inr ⟨_, List.mem_append_right _ (List.mem_singleton_self _), rfl⟩
      · exact Or.inl old
  | callbackCommitted published found => cases own
  | _ => exact Or.inl member

/-- A callback leaves no row in PROCESSING that was not, and none of its own worker. -/
theorem processing_of_callback {scan : Scan} {db next : Database}
    {processingId workerId tileURL : String} {published : Option EchoMergeMessage}
    (returned : callbackEchoWorker scan db processingId workerId tileURL = .ok (next, published))
    {row : EchoWorker} (member : row ∈ next.workers.rows) (processing : row.state = .processing) :
    row ∈ db.workers.rows ∧ row.workerId ≠ workerId := by
  rcases callbackEchoWorker_ok returned with ⟨missing, rfl, _⟩ | ⟨found, foundEq, rfl, _⟩
  · refine ⟨member, fun same => ?_⟩
    rw [(findByWorkerId_eq_some_iff _ _ row).mpr ⟨member, same⟩] at missing
    cases missing
  · obtain ⟨_, sameWorker⟩ := (findByWorkerId_eq_some_iff _ _ _).mp foundEq
    rcases KeyedTable.of_mem_save member with rfl | ⟨old, different⟩
    · cases processing
    · exact ⟨old, fun same => different (same.trans sameWorker.symm)⟩

end Orchestrator

namespace Messaging

def QueueName.source : QueueName → RoutingKey
  | .start => .start
  | .worker => .worker
  | .workerCallback => .workerCallback
  | .merge => .merge
  | .mergeCallback => .mergeCallback
  | .trackerStart => .start
  | .trackerWorkerCallback => .workerCallback
  | .trackerMergeCallback => .mergeCallback
  | .deadLetter => .deadLetter

/-- Only the worker in C++ binds a queue with a key of its own, which nobody publishes with. -/
theorem source_of_declaration (service : Service) {key : RoutingKey} {queue : QueueName}
    (bound : ((Exchange.echo, key), queue) ∈ service.declaration.bindings)
    (known : key ≠ .echo) : key = queue.source := by
  cases service <;> cases queue <;> cases key <;> first | rfl | (revert bound known; decide)

end Messaging

def Platform.bodies (platform : Platform) : RoutingKey → List Json
  | .start => platform.startMessages.map Start.message.write
  | .worker => platform.orchestrator.workerMessages.map workerMessage.write
  | .workerCallback => platform.orchestrator.callbackMessages.map WorkerCallback.message.write
  | .merge => platform.orchestrator.mergeMessages.map mergeMessage.write
  | .mergeCallback => platform.mergeCallbacks.map MergeCallback.message.write
  | .deadLetter => []
  | .echo => []

namespace Deployment

theorem reads_of_mem_bodies {platform : Platform} {name : QueueName} {body : Json}
    (published : body ∈ platform.bodies name.source) : reads name body = true := by
  cases name with
  | start =>
      obtain ⟨message, _, rfl⟩ := List.mem_map.mp published
      simp only [reads, Json.Codec.read_write, Option.isSome_some]
  | worker =>
      obtain ⟨message, _, rfl⟩ := List.mem_map.mp published
      simp only [reads, Json.Codec.read_write, Option.isSome_some]
  | workerCallback =>
      obtain ⟨message, _, rfl⟩ := List.mem_map.mp published
      simp only [reads, Json.Codec.read_write, Option.isSome_some]
  | merge =>
      obtain ⟨message, _, rfl⟩ := List.mem_map.mp published
      simp only [reads, Json.Codec.read_write, Option.isSome_some]
  | mergeCallback =>
      obtain ⟨message, _, rfl⟩ := List.mem_map.mp published
      simp only [reads, Json.Codec.read_write, Option.isSome_some]
  | trackerStart =>
      obtain ⟨message, _, rfl⟩ := List.mem_map.mp published
      simp only [reads, tracker_start, Option.isSome_some]
  | trackerWorkerCallback =>
      obtain ⟨message, _, rfl⟩ := List.mem_map.mp published
      simp only [reads, tracker_workerCallback, Option.isSome_some]
  | trackerMergeCallback =>
      obtain ⟨message, _, rfl⟩ := List.mem_map.mp published
      simp only [reads, tracker_mergeCallback, Option.isSome_some]
  | deadLetter => rfl

theorem mem_of_read {α : Type} (codec : Json.Codec α) {messages : List α} {body : Json}
    {message : α} (published : body ∈ messages.map codec.write)
    (readable : codec.read body = some message) :
    message ∈ messages ∧ body = codec.write message := by
  obtain ⟨original, member, rfl⟩ := List.mem_map.mp published
  rw [codec.read_write] at readable
  cases readable
  exact ⟨member, rfl⟩

structure Agrees (deployment : Deployment) (platform : Platform) : Prop where
  db : platform.orchestrator.db = deployment.db
  handlers : platform.orchestrator.handlers = deployment.handlers
  threads : platform.threads = deployment.threads
  trackers : platform.trackers = deployment.trackers

/-- The state of the services is the one of the platform, and what is pending in a queue
was published with its key. -/
structure Refines (deployment : Deployment) (platform : Platform) : Prop where
  attended : Attended deployment
  agrees : Agrees deployment platform
  drawn : ∀ message ∈ platform.startMessages, message.processingId ∈ deployment.drawn
  carried : ∀ name, ∀ body ∈ (deployment.queue name).pending,
    body ∈ platform.bodies name.source

theorem refines_initial : Refines initial Platform.initial :=
  { attended := attended_initial
    agrees := ⟨rfl, rfl, rfl, rfl⟩
    drawn := fun _ member => by cases member
    carried := fun _ _ member => by cases member }

/-- How a message is done with when it leaves its queue. -/
inductive Consumed (deployment next : Deployment) (event : Event) (key : RoutingKey)
    (sent : List Json) : QueueName → Json → Prop where
  | start {handler message totalWorkers}
      (phase : deployment.handlers handler = .starting message totalWorkers []) :
      Consumed deployment next event key sent .start (Start.message.write message)
  | worker {thread message} (running : (deployment.threads thread).running = some message)
      (keyEq : key = .workerCallback)
      (reported : WorkerCallback.message.write
        ((deployment.threads thread).callback message) ∈ sent) :
      Consumed deployment next event key sent .worker (workerMessage.write message)
  | workerCallback {scan message published}
      (returned : EchoWorkerService.callbackEchoWorker scan deployment.db message.processingId
        message.workerId message.imageURL = .ok (next.db, published)) :
      Consumed deployment next event key sent .workerCallback (WorkerCallback.message.write message)
  | merge {message} (keyEq : key = .mergeCallback)
      (reported : MergeCallback.message.write (Image.mergeCallback message) ∈ sent) :
      Consumed deployment next event key sent .merge (mergeMessage.write message)
  | mergeCallback {body} : Consumed deployment next event key sent .mergeCallback body
  | trackerStart {message now}
      (returned : Tracking.Listener.receiveStartMessage deployment.trackers
        (Platform.trackerStart message) now = .ok next.trackers) :
      Consumed deployment next event key sent .trackerStart (Start.message.write message)
  | trackerWorkerCallback {message now}
      (returned : Tracking.Listener.receiveWorkerCallbackMessage deployment.trackers
        (Platform.trackerCallback message) now = .ok next.trackers) :
      Consumed deployment next event key sent .trackerWorkerCallback
        (WorkerCallback.message.write message)
  | trackerMergeCallback {position now settlement message rest}
      (own : event = .trackMergeCallback position now settlement)
      (taken : (deployment.queue .trackerMergeCallback).take? position =
        some (MergeCallback.message.write message, rest))
      (returned : next.trackers = Tracking.TrackerService.finishProcessing deployment.trackers
        message.processingId now) :
      Consumed deployment next event key sent .trackerMergeCallback
        (MergeCallback.message.write message)

def Event.Accepted : Event → Prop
  | .post uuid body => ∃ result, Controller.ProcessingController.echo uuid body = .ok result
  | _ => False

instance Event.decidableAccepted : (event : Event) → Decidable event.Accepted
  | .post uuid body =>
      match answered : Controller.ProcessingController.echo uuid body with
      | .ok result => isTrue ⟨result, answered⟩
      | .error _ => isFalse (fun accepted => by
          obtain ⟨result, ok⟩ := accepted
          rw [answered] at ok
          cases ok)
  | .connect _ | .receive _ _ _ | .createOrchestrator _ | .createWorkers _ _ _ _
  | .startEchoWorker _ _ _ | .acknowledge _ | .stop _ | .work _ _ | .report _ _ | .fail _
  | .restart _ | .lose _ _ | .callback _ _ _ _ _ | .merge _ _ | .mergeCallback _ _
  | .trackStart _ _ _ | .trackWorkerCallback _ _ _ | .trackMergeCallback _ _ _ => isFalse id

/-- The body is the start message of the request, under an id that was not drawn before. -/
def Requested (deployment : Deployment) (event : Event) (body : Json) : Prop :=
  ∃ uuid request entity message, event = .post uuid request ∧
    Controller.ProcessingController.echo uuid request = .ok (entity, message) ∧
    uuid ∉ deployment.drawn ∧ body = Start.message.write message

/-- A callback of a worker or of the merger is published by the execution that it is about. -/
inductive Reports (deployment : Deployment) : Event → RoutingKey → Json → Prop where
  | worker {thread settlement message}
      (running : (deployment.threads thread).running = some message) :
      Reports deployment (.report thread settlement) .workerCallback
        (WorkerCallback.message.write ((deployment.threads thread).callback message))
  | merger {position settlement body rest message}
      (taken : (deployment.queue .merge).take? position = some (body, rest))
      (readable : mergeMessage.read body = some message) :
      Reports deployment (.merge position settlement) .mergeCallback
        (MergeCallback.message.write (Image.mergeCallback message))
  | other {event key body} (worker : key ≠ .workerCallback) (merger : key ≠ .mergeCallback) :
      Reports deployment event key body

/-- What a step does with the messages: some are done with, and some are published, but
none without a request or another message that has come before. -/
structure Exchanges (deployment next : Deployment) (event : Event) (platform image : Platform)
    (name : QueueName) (gone : List Json) (key : RoutingKey) (sent : List Json) : Prop where
  known : key ≠ .echo
  moves : deployment.broker.Moves next.broker name gone (.echo, key) sent
  bodies : ∀ other body, body ∈ image.bodies other ↔
    body ∈ platform.bodies other ∨ (other = key ∧ body ∈ sent)
  consumed : ∀ body ∈ gone, Consumed deployment next event key sent name body
  caused : sent ≠ [] → event.Accepted ∨ ∃ other body, body ∈ platform.bodies other
  reports : ∀ body ∈ sent, Reports deployment event key body
  fresh : key = .start → sent.Nodup ∧ ∀ body ∈ sent, Requested deployment event body
  restarted : ∀ row ∈ next.db.workers.rows, row.state = .processing →
    row ∈ deployment.db.workers.rows ∨ (key = .worker ∧ ∃ message : EchoWorkerMessage,
      message.workerId = row.workerId ∧ workerMessage.write message ∈ sent)

/-- A step of the platform, or none, that ends where the step of the deployment does. -/
structure Follows (deployment next : Deployment) (event : Event) (platform image : Platform) :
    Prop where
  run : ∃ events, Platform.machine.Runs platform events image
  refines : Refines next image
  exchanges : ∃ name gone key sent,
    Exchanges deployment next event platform image name gone key sent

theorem Exchanges.carried {deployment next : Deployment} {event : Event}
    {platform image : Platform} {name : QueueName} {gone sent : List Json} {key : RoutingKey}
    (exchanges : Exchanges deployment next event platform image name gone key sent)
    (refines : Refines deployment platform) :
    ∀ queue, ∀ body ∈ (next.queue queue).pending, body ∈ image.bodies queue.source := by
  intro queue body member
  rw [exchanges.bodies]
  rcases exchanges.moves.arrived queue member with old | ⟨listed, routed⟩
  · exact Or.inl (refines.carried queue body old)
  · obtain ⟨services, declared⟩ := refines.attended.declared
    obtain ⟨service, _, bound⟩ := (declared.routes _ _).mp routed
    exact Or.inr ⟨(source_of_declaration service bound exchanges.known).symm, listed⟩

theorem bodies_append {platform image : Platform} {key : RoutingKey} {sent : List Json}
    (own : image.bodies key = platform.bodies key ++ sent)
    (others : ∀ other, other ≠ key → image.bodies other = platform.bodies other)
    (other : RoutingKey) (body : Json) :
    body ∈ image.bodies other ↔ body ∈ platform.bodies other ∨ (other = key ∧ body ∈ sent) := by
  by_cases same : other = key
  · subst same
    rw [own, List.mem_append]
    simp
  · rw [others other same]
    simp [same]

theorem bodies_same {platform image : Platform} (same : image.bodies = platform.bodies)
    (key other : RoutingKey) (body : Json) :
    body ∈ image.bodies other ↔ body ∈ platform.bodies other ∨ (other = key ∧ body ∈ []) := by
  rw [same]
  simp

theorem Refines.follow {deployment next : Deployment} {platform image : Platform} {event : Event}
    {events : List Platform.Event} {name : QueueName} {gone sent : List Json} {key : RoutingKey}
    (refines : Refines deployment platform) (transition : Transition deployment event next)
    (run : Platform.machine.Runs platform events image) (agrees : Agrees next image)
    (drawn : ∀ message ∈ image.startMessages, message.processingId ∈ next.drawn)
    (exchanges : Exchanges deployment next event platform image name gone key sent) :
    ∃ image, Follows deployment next event platform image :=
  ⟨image,
    { run := ⟨events, run⟩
      refines :=
        { attended := transition.attended refines.attended
          agrees := agrees
          drawn := drawn
          carried := exchanges.carried refines }
      exchanges := ⟨name, gone, key, sent, exchanges⟩ }⟩

end Deployment

end EchoProcessing
