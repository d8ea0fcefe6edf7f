/-
The services as they are deployed: around a broker that forgets what is acknowledged.

The queues hold bodies, and a listener reads a body by its own class. A delivery that ends
with an exception, or whose channel is lost, goes back to its queue; one that cannot be
read is rejected. Where a listener is one transaction, its effect and the end of its
delivery are one event: nobody else sees the delivery in between.
-/

import EchoProcessing.Controller.Service
import EchoProcessing.Messaging.Codecs
import EchoProcessing.Messaging.Topology
import EchoProcessing.Orchestrator.Leftovers
import EchoProcessing.Platform.System

namespace EchoProcessing

open Messaging Orchestrator

abbrev EchoBroker := Broker Exchange RoutingKey QueueName QueueArguments ℕ Json

structure Deployment where
  broker : EchoBroker
  /-- The processing ids that `UUID.randomUUID` has returned. -/
  drawn : List String
  db : Database
  handlers : ℕ → Handler
  threads : ℕ → WorkerThread
  trackers : Tracking.Trackers

namespace Orchestrator.Listener

/-- The injected error comes before the payload is read. -/
def receiveWorkerCallbackMessage (strategy : ErrorStrategy) (scan : Scan) (db : Database)
    (payload : EchoWorkerCallbackMessage) :
    Except Failure (Database × Option EchoMergeMessage) := do
  applyErrorStrategy strategy .onWorkerCallbackMessage
  EchoWorkerService.callbackEchoWorker scan db payload.processingId payload.workerId
    payload.imageURL

end Orchestrator.Listener

namespace Deployment

def initial : Deployment :=
  { broker := .empty
    drawn := []
    db := Database.empty
    handlers := fun _ => .idle
    threads := fun _ => .new
    trackers := KeyedTable.empty }

/-- An acknowledgement can be lost with its channel; the message is then delivered again. -/
inductive Settlement where
  | acknowledged
  | givenBack
deriving DecidableEq, Repr

inductive Event where
  | connect (service : Service)
  | post (uuid : String) (body : Controller.EchoRequest)
  | receive (handler position : ℕ) (strategy : ErrorStrategy)
  | createOrchestrator (handler : ℕ)
  | createWorkers (handler : ℕ) (strategy : ErrorStrategy) (uuid : ℕ → String) (scan : Scan)
  | startEchoWorker (handler : ℕ) (strategy : ErrorStrategy) (outcome : Outcome)
  | acknowledge (handler : ℕ)
  | stop (handler : ℕ)
  | work (thread position : ℕ)
  | report (thread : ℕ) (settlement : Settlement)
  | fail (thread : ℕ)
  | restart (thread : ℕ)
  /-- The channel of a consumer is lost, and its listener goes on. -/
  | lose (queue : QueueName) (consumer : ℕ)
  | callback (position : ℕ) (strategy : ErrorStrategy) (scan : Scan) (outcome : Outcome)
      (settlement : Settlement)
  | merge (position : ℕ) (settlement : Settlement)
  | mergeCallback (position : ℕ) (settlement : Settlement)
  | trackStart (position : ℕ) (now : Tracking.Instant) (settlement : Settlement)
  | trackWorkerCallback (position : ℕ) (now : Tracking.Instant) (settlement : Settlement)
  | trackMergeCallback (position : ℕ) (now : Tracking.Instant) (settlement : Settlement)

def queue (deployment : Deployment) (name : QueueName) : WorkQueue ℕ Json :=
  deployment.broker.queues name

def setQueue (deployment : Deployment) (name : QueueName) (content : WorkQueue ℕ Json) :
    Deployment :=
  { deployment with broker := deployment.broker.setQueue name content }

/-- `convertAndSend` to the echo exchange. -/
def publish (deployment : Deployment) (key : RoutingKey) (bodies : List Json) : Deployment :=
  { deployment with broker := deployment.broker.publishAll (.echo, key) bodies }

/-- A message that is rejected goes where the arguments of its queue say, or away. -/
def reject (deployment : Deployment) (name : QueueName) (body : Json)
    (rest : WorkQueue ℕ Json) : Deployment :=
  let removed := deployment.setQueue name rest
  match deployment.broker.topology.arguments name with
  | some { deadLetterExchange := some exchange, deadLetterRoutingKey := some key } =>
      { removed with broker := removed.broker.publish (exchange, key) body }
  | _ => removed

/-- A delivery to a listener: of the body at a position, read by the listener's class. -/
def deliver {α : Type} (deployment : Deployment) (name : QueueName) (position : ℕ)
    (read : Json → Option α) (listener : Json → WorkQueue ℕ Json → α → Deployment) :
    Option Deployment :=
  match (deployment.queue name).take? position with
  | none => none
  | some (body, rest) =>
      match read body with
      | none => some (deployment.reject name body rest)
      | some payload => some (listener body rest payload)

def settle (deployment : Deployment) (name : QueueName) (rest : WorkQueue ℕ Json) :
    Settlement → Deployment
  | .acknowledged => deployment.setQueue name rest
  | .givenBack => deployment

def connect (deployment : Deployment) (service : Service) : Option Deployment :=
  (deployment.broker.topology.declare? service.declaration).map (fun topology =>
    { deployment with broker := { deployment.broker with topology := topology } })

/-- A new id is never one that was drawn before. -/
def post (deployment : Deployment) (uuid : String) (body : Controller.EchoRequest) :
    Option Deployment :=
  match Controller.ProcessingController.echo uuid body with
  | .error _ => some deployment
  | .ok (_, message) =>
      if uuid ∈ deployment.drawn then none
      else some ({ deployment with drawn := deployment.drawn ++ [uuid] }.publish .start
        [Start.message.write message])

def setHandler (deployment : Deployment) (handler : ℕ) (phase : Handler) : Deployment :=
  { deployment with handlers := Function.update deployment.handlers handler phase }

/-- A listener takes one delivery at a time. -/
def receive (deployment : Deployment) (handler position : ℕ) (strategy : ErrorStrategy) :
    Option Deployment :=
  if deployment.handlers handler = .idle ∧
      ((deployment.queue .start).held handler).isEmpty = true then
    deployment.deliver .start position Start.message.read (fun body rest message =>
      if strategy .onStartMessage then deployment
      else (deployment.setHandler handler (.received message)).setQueue .start
        (rest.hold handler body))
  else none

/-- The part of the orchestrator, without a message: its transactions remember none. -/
def system (deployment : Deployment) : System :=
  { System.initial deployment.db with handlers := deployment.handlers }

/-- A handler that is idle after its own transaction has thrown. -/
def giveBackIfIdle (deployment : Deployment) (handler : ℕ) : Deployment :=
  if deployment.handlers handler = .idle then
    deployment.setQueue .start ((deployment.queue .start).giveBack handler)
  else deployment

/-- One transaction of `EchoService.start`, with what it publishes. -/
def advance (deployment : Deployment) (handler : ℕ) (event : Orchestrator.Event) :
    Option Deployment :=
  (System.step deployment.system event).map (fun next =>
    ({ deployment with db := next.db, handlers := next.handlers }.publish .worker
      (next.workerMessages.map workerMessage.write)).giveBackIfIdle handler)

def acknowledge (deployment : Deployment) (handler : ℕ) : Option Deployment :=
  (System.step deployment.system (.acknowledge handler)).map (fun next =>
    { deployment with handlers := next.handlers }.setQueue .start
      ((deployment.queue .start).acknowledge handler))

def stop (deployment : Deployment) (handler : ℕ) : Deployment :=
  (deployment.setHandler handler .idle).setQueue .start
    ((deployment.queue .start).giveBack handler)

def setThread (deployment : Deployment) (thread : ℕ) (content : WorkerThread) : Deployment :=
  { deployment with threads := Function.update deployment.threads thread content }

def work (deployment : Deployment) (thread position : ℕ) : Option Deployment :=
  if (deployment.threads thread).running = none ∧
      ((deployment.queue .worker).held thread).isEmpty = true then
    deployment.deliver .worker position workerMessage.read (fun body rest message =>
      (deployment.setThread thread (.receiveMessage message)).setQueue .worker
        (rest.hold thread body))
  else none

def settleThread (deployment : Deployment) (thread : ℕ) : Settlement → Deployment
  | .acknowledged => deployment.setQueue .worker ((deployment.queue .worker).acknowledge thread)
  | .givenBack => deployment.setQueue .worker ((deployment.queue .worker).giveBack thread)

def report (deployment : Deployment) (thread : ℕ) (settlement : Settlement) :
    Option Deployment :=
  match (deployment.threads thread).running with
  | none => none
  | some message =>
      some (((deployment.setThread thread (deployment.threads thread).release).settleThread thread
        settlement).publish .workerCallback
          [WorkerCallback.message.write ((deployment.threads thread).callback message)])

def fail (deployment : Deployment) (thread : ℕ) : Deployment :=
  (deployment.setThread thread (deployment.threads thread).release).settleThread thread .givenBack

def restart (deployment : Deployment) (thread : ℕ) : Deployment :=
  (deployment.setThread thread .new).settleThread thread .givenBack

def lose (deployment : Deployment) (name : QueueName) (consumer : ℕ) : Deployment :=
  deployment.setQueue name ((deployment.queue name).giveBack consumer)

/-- A transaction that is rolled back after its publish has thrown. -/
def callback (deployment : Deployment) (position : ℕ) (strategy : ErrorStrategy) (scan : Scan)
    (outcome : Outcome) (settlement : Settlement) : Option Deployment :=
  deployment.deliver .workerCallback position WorkerCallback.message.read
    (fun _ rest message =>
      match Orchestrator.Listener.receiveWorkerCallbackMessage strategy scan deployment.db
          message with
      | .error _ => deployment
      | .ok (next, published) =>
          let bodies := published.toList.map mergeMessage.write
          match outcome with
          | .rolledBack => deployment.publish .merge bodies
          | .committed =>
              ({ deployment with db := next }.settle .workerCallback rest settlement).publish
                .merge bodies)

def merge (deployment : Deployment) (position : ℕ) (settlement : Settlement) :
    Option Deployment :=
  deployment.deliver .merge position mergeMessage.read (fun _ rest message =>
    (deployment.settle .merge rest settlement).publish .mergeCallback
      [MergeCallback.message.write (Image.mergeCallback message)])

/-- `EchoService.mergeCallback` is empty. -/
def mergeCallback (deployment : Deployment) (position : ℕ) (settlement : Settlement) :
    Option Deployment :=
  deployment.deliver .mergeCallback position MergeCallback.message.read (fun _ rest _ =>
    deployment.settle .mergeCallback rest settlement)

/-- A listener of the tracker, which is one transaction on its table. -/
def track {α : Type} (deployment : Deployment) (name : QueueName) (position : ℕ)
    (settlement : Settlement) (read : Json → Option α)
    (listener : Tracking.Trackers → α → Except Failure Tracking.Trackers) : Option Deployment :=
  deployment.deliver name position read (fun _ rest payload =>
    match listener deployment.trackers payload with
    | .error _ => deployment
    | .ok next => { deployment with trackers := next }.settle name rest settlement)

def trackStart (deployment : Deployment) (position : ℕ) (now : Tracking.Instant)
    (settlement : Settlement) : Option Deployment :=
  deployment.track .trackerStart position settlement Start.tracker (fun trackers payload =>
    Tracking.Listener.receiveStartMessage trackers payload now)

def trackWorkerCallback (deployment : Deployment) (position : ℕ) (now : Tracking.Instant)
    (settlement : Settlement) : Option Deployment :=
  deployment.track .trackerWorkerCallback position settlement WorkerCallback.tracker
    (fun trackers payload => Tracking.Listener.receiveWorkerCallbackMessage trackers payload now)

/-- `Listener.receiveMergeCallbackMessage` of the tracker, which reads no area. -/
def trackMergeCallback (deployment : Deployment) (position : ℕ) (now : Tracking.Instant)
    (settlement : Settlement) : Option Deployment :=
  deployment.track .trackerMergeCallback position settlement MergeCallback.tracker
    (fun trackers payload =>
      .ok (Tracking.TrackerService.finishProcessing trackers payload.processingId now))

def step (deployment : Deployment) : Event → Option Deployment
  | .connect service => deployment.connect service
  | .post uuid body => deployment.post uuid body
  | .receive handler position strategy => deployment.receive handler position strategy
  | .createOrchestrator handler => deployment.advance handler (.createOrchestrator handler)
  | .createWorkers handler strategy uuid scan =>
      deployment.advance handler (.createWorkers handler strategy uuid scan)
  | .startEchoWorker handler strategy outcome =>
      deployment.advance handler (.startEchoWorker handler strategy outcome)
  | .acknowledge handler => deployment.acknowledge handler
  | .stop handler => some (deployment.stop handler)
  | .work thread position => deployment.work thread position
  | .report thread settlement => deployment.report thread settlement
  | .fail thread => some (deployment.fail thread)
  | .restart thread => some (deployment.restart thread)
  | .lose name consumer => some (deployment.lose name consumer)
  | .callback position strategy scan outcome settlement =>
      deployment.callback position strategy scan outcome settlement
  | .merge position settlement => deployment.merge position settlement
  | .mergeCallback position settlement => deployment.mergeCallback position settlement
  | .trackStart position now settlement => deployment.trackStart position now settlement
  | .trackWorkerCallback position now settlement =>
      deployment.trackWorkerCallback position now settlement
  | .trackMergeCallback position now settlement =>
      deployment.trackMergeCallback position now settlement

/-- Every interleaving of the services over the broker is a run. The transactions of the
listeners do not overlap: each is one step here. A connection that the broker refuses is
none, and a worker that stays alive can always open its source image and report. -/
def machine : Machine Deployment Event where
  step := step

/-- The class of the listener of a queue reads the body. -/
def reads (name : QueueName) (body : Json) : Bool :=
  match name with
  | .start => (Start.message.read body).isSome
  | .worker => (workerMessage.read body).isSome
  | .workerCallback => (WorkerCallback.message.read body).isSome
  | .merge => (mergeMessage.read body).isSome
  | .mergeCallback => (MergeCallback.message.read body).isSome
  | .trackerStart => (Start.tracker body).isSome
  | .trackerWorkerCallback => (WorkerCallback.tracker body).isSome
  | .trackerMergeCallback => (MergeCallback.tracker body).isSome
  | .deadLetter => true

/-- The event as a transaction of the handler of a start message. -/
def Event.transaction? : Event → Option (ℕ × Orchestrator.Event)
  | .createOrchestrator handler => some (handler, .createOrchestrator handler)
  | .createWorkers handler strategy uuid scan =>
      some (handler, .createWorkers handler strategy uuid scan)
  | .startEchoWorker handler strategy outcome =>
      some (handler, .startEchoWorker handler strategy outcome)
  | _ => none

theorem deliver_cases {α : Type} {deployment next : Deployment} {name : QueueName}
    {position : ℕ} {read : Json → Option α} {listener : Json → WorkQueue ℕ Json → α → Deployment}
    (delivered : deployment.deliver name position read listener = some next) :
    ∃ body rest, (deployment.queue name).take? position = some (body, rest) ∧
      ((read body = none ∧ next = deployment.reject name body rest) ∨
        ∃ payload, read body = some payload ∧ next = listener body rest payload) := by
  unfold deliver at delivered
  split at delivered
  · cases delivered
  · rename_i body rest taken
    refine ⟨body, rest, taken, ?_⟩
    split at delivered
    · rename_i unreadable
      exact Or.inl ⟨unreadable, (Option.some.inj delivered).symm⟩
    · rename_i payload readable
      exact Or.inr ⟨payload, readable, (Option.some.inj delivered).symm⟩

/-- One constructor for each way in which an event ends, guards included. -/
inductive Transition (deployment : Deployment) : Event → Deployment → Prop where
  | connected {service topology}
      (declared : deployment.broker.topology.declare? service.declaration = some topology) :
      Transition deployment (.connect service)
        { deployment with broker := { deployment.broker with topology := topology } }
  | posted {uuid body entity message}
      (echoed : Controller.ProcessingController.echo uuid body = .ok (entity, message))
      (fresh : uuid ∉ deployment.drawn) :
      Transition deployment (.post uuid body)
        ({ deployment with drawn := deployment.drawn ++ [uuid] }.publish .start
          [Start.message.write message])
  /-- The request is refused, or the listener throws before it has done anything. -/
  | thrown {event} : Transition deployment event deployment
  | rejected {event name position body rest}
      (taken : (deployment.queue name).take? position = some (body, rest))
      (unreadable : reads name body = false) :
      Transition deployment event (deployment.reject name body rest)
  | received {handler position strategy body rest message}
      (idle : deployment.handlers handler = .idle)
      (free : (deployment.queue .start).held handler = [])
      (taken : (deployment.queue .start).take? position = some (body, rest))
      (readable : Start.message.read body = some message) :
      Transition deployment (.receive handler position strategy)
        ((deployment.setHandler handler (.received message)).setQueue .start
          (rest.hold handler body))
  | advanced {event handler inner next} (transaction : event.transaction? = some (handler, inner))
      (stepped : delivery.step deployment.system inner = some next) :
      Transition deployment event
        (({ deployment with db := next.db, handlers := next.handlers }.publish .worker
          (next.workerMessages.map workerMessage.write)).giveBackIfIdle handler)
  | acknowledged {handler next}
      (stepped : delivery.step deployment.system (.acknowledge handler) = some next) :
      Transition deployment (.acknowledge handler)
        ({ deployment with handlers := next.handlers }.setQueue .start
          ((deployment.queue .start).acknowledge handler))
  | stopped {handler} : Transition deployment (.stop handler) (deployment.stop handler)
  | began {thread position body rest message}
      (free : (deployment.threads thread).running = none)
      (unheld : (deployment.queue .worker).held thread = [])
      (taken : (deployment.queue .worker).take? position = some (body, rest))
      (readable : workerMessage.read body = some message) :
      Transition deployment (.work thread position)
        ((deployment.setThread thread (.receiveMessage message)).setQueue .worker
          (rest.hold thread body))
  | reported {thread settlement message}
      (running : (deployment.threads thread).running = some message) :
      Transition deployment (.report thread settlement)
        (((deployment.setThread thread (deployment.threads thread).release).settleThread thread
          settlement).publish .workerCallback
            [WorkerCallback.message.write ((deployment.threads thread).callback message)])
  | failed {thread} : Transition deployment (.fail thread) (deployment.fail thread)
  | restarted {thread} : Transition deployment (.restart thread) (deployment.restart thread)
  | lost {name consumer} :
      Transition deployment (.lose name consumer) (deployment.lose name consumer)
  | calledBack {position strategy scan settlement body rest message next published}
      (taken : (deployment.queue .workerCallback).take? position = some (body, rest))
      (readable : WorkerCallback.message.read body = some message)
      (returned : EchoWorkerService.callbackEchoWorker scan deployment.db message.processingId
        message.workerId message.imageURL = .ok (next, published)) :
      Transition deployment (.callback position strategy scan .committed settlement)
        (({ deployment with db := next }.settle .workerCallback rest settlement).publish .merge
          (published.toList.map mergeMessage.write))
  | rolledBack {position strategy scan settlement body rest message next published}
      (taken : (deployment.queue .workerCallback).take? position = some (body, rest))
      (readable : WorkerCallback.message.read body = some message)
      (returned : EchoWorkerService.callbackEchoWorker scan deployment.db message.processingId
        message.workerId message.imageURL = .ok (next, published)) :
      Transition deployment (.callback position strategy scan .rolledBack settlement)
        (deployment.publish .merge (published.toList.map mergeMessage.write))
  | merged {position settlement body rest message}
      (taken : (deployment.queue .merge).take? position = some (body, rest))
      (readable : mergeMessage.read body = some message) :
      Transition deployment (.merge position settlement)
        ((deployment.settle .merge rest settlement).publish .mergeCallback
          [MergeCallback.message.write (Image.mergeCallback message)])
  | mergeHandled {position settlement body rest message}
      (taken : (deployment.queue .mergeCallback).take? position = some (body, rest))
      (readable : MergeCallback.message.read body = some message) :
      Transition deployment (.mergeCallback position settlement)
        (deployment.settle .mergeCallback rest settlement)
  | startTracked {position now settlement body rest payload next}
      (taken : (deployment.queue .trackerStart).take? position = some (body, rest))
      (readable : Start.tracker body = some payload)
      (returned : Tracking.Listener.receiveStartMessage deployment.trackers payload now =
        .ok next) :
      Transition deployment (.trackStart position now settlement)
        ({ deployment with trackers := next }.settle .trackerStart rest settlement)
  | workerTracked {position now settlement body rest payload next}
      (taken : (deployment.queue .trackerWorkerCallback).take? position = some (body, rest))
      (readable : WorkerCallback.tracker body = some payload)
      (returned : Tracking.Listener.receiveWorkerCallbackMessage deployment.trackers payload now =
        .ok next) :
      Transition deployment (.trackWorkerCallback position now settlement)
        ({ deployment with trackers := next }.settle .trackerWorkerCallback rest settlement)
  | mergeTracked {position now settlement body rest payload}
      (taken : (deployment.queue .trackerMergeCallback).take? position = some (body, rest))
      (readable : MergeCallback.tracker body = some payload) :
      Transition deployment (.trackMergeCallback position now settlement)
        ({ deployment with
            trackers := Tracking.TrackerService.finishProcessing deployment.trackers
              payload.processingId now
          }.settle .trackerMergeCallback rest settlement)

private theorem rejected_of_read {α : Type} {deployment : Deployment} {event : Event}
    {name : QueueName} {position : ℕ} {body : Json} {rest : WorkQueue ℕ Json}
    {read : Json → Option α}
    (taken : (deployment.queue name).take? position = some (body, rest))
    (class_ : reads name body = (read body).isSome) (unreadable : read body = none) :
    Transition deployment event (deployment.reject name body rest) := by
  apply Transition.rejected taken
  rw [class_, unreadable]
  rfl

theorem step_transition {deployment next : Deployment} {event : Event}
    (stepped : machine.step deployment event = some next) : Transition deployment event next := by
  cases event with
  | connect service =>
      obtain ⟨topology, declared, rfl⟩ := Option.map_eq_some_iff.mp stepped
      exact .connected declared
  | post uuid body =>
      change deployment.post uuid body = some next at stepped
      unfold post at stepped
      split at stepped
      · cases stepped
        exact .thrown
      · rename_i entity message echoed
        split at stepped
        · cases stepped
        · rename_i fresh
          cases stepped
          exact .posted echoed fresh
  | receive handler position strategy =>
      obtain ⟨⟨idle, free⟩, delivered⟩ := Option.ite_none_right_eq_some.mp stepped
      obtain ⟨body, rest, taken, ⟨unreadable, rfl⟩ | ⟨message, readable, rfl⟩⟩ :=
        deliver_cases delivered
      · exact rejected_of_read taken rfl unreadable
      · split
        · exact .thrown
        · exact .received idle (List.isEmpty_iff.mp free) taken readable
  | createOrchestrator handler =>
      obtain ⟨system, inner, rfl⟩ := Option.map_eq_some_iff.mp stepped
      exact .advanced rfl inner
  | createWorkers handler strategy uuid scan =>
      obtain ⟨system, inner, rfl⟩ := Option.map_eq_some_iff.mp stepped
      exact .advanced rfl inner
  | startEchoWorker handler strategy outcome =>
      obtain ⟨system, inner, rfl⟩ := Option.map_eq_some_iff.mp stepped
      exact .advanced rfl inner
  | acknowledge handler =>
      obtain ⟨system, inner, rfl⟩ := Option.map_eq_some_iff.mp stepped
      exact .acknowledged inner
  | stop handler =>
      cases stepped
      exact .stopped
  | work thread position =>
      obtain ⟨⟨free, unheld⟩, delivered⟩ := Option.ite_none_right_eq_some.mp stepped
      obtain ⟨body, rest, taken, ⟨unreadable, rfl⟩ | ⟨message, readable, rfl⟩⟩ :=
        deliver_cases delivered
      · exact rejected_of_read taken rfl unreadable
      · exact .began free (List.isEmpty_iff.mp unheld) taken readable
  | report thread settlement =>
      change deployment.report thread settlement = some next at stepped
      unfold report at stepped
      split at stepped
      · cases stepped
      · rename_i message running
        cases stepped
        exact .reported running
  | fail thread =>
      cases stepped
      exact .failed
  | restart thread =>
      cases stepped
      exact .restarted
  | lose name consumer =>
      cases stepped
      exact .lost
  | callback position strategy scan outcome settlement =>
      obtain ⟨body, rest, taken, ⟨unreadable, rfl⟩ | ⟨message, readable, rfl⟩⟩ :=
        deliver_cases stepped
      · exact rejected_of_read taken rfl unreadable
      · split
        · exact .thrown
        · rename_i database published returned
          have handled : EchoWorkerService.callbackEchoWorker scan deployment.db
              message.processingId message.workerId message.imageURL =
                .ok (database, published) := by
            unfold Orchestrator.Listener.receiveWorkerCallbackMessage at returned
            cases injected : applyErrorStrategy strategy .onWorkerCallbackMessage with
            | error failure =>
                rw [injected] at returned
                cases returned
            | ok passed =>
                rw [injected] at returned
                exact returned
          cases outcome with
          | committed => exact .calledBack taken readable handled
          | rolledBack => exact .rolledBack taken readable handled
  | merge position settlement =>
      obtain ⟨body, rest, taken, ⟨unreadable, rfl⟩ | ⟨message, readable, rfl⟩⟩ :=
        deliver_cases stepped
      · exact rejected_of_read taken rfl unreadable
      · exact .merged taken readable
  | mergeCallback position settlement =>
      obtain ⟨body, rest, taken, ⟨unreadable, rfl⟩ | ⟨message, readable, rfl⟩⟩ :=
        deliver_cases stepped
      · exact rejected_of_read taken rfl unreadable
      · exact .mergeHandled taken readable
  | trackStart position now settlement =>
      obtain ⟨body, rest, taken, ⟨unreadable, rfl⟩ | ⟨payload, readable, rfl⟩⟩ :=
        deliver_cases stepped
      · exact rejected_of_read taken rfl unreadable
      · split
        · exact .thrown
        · exact .startTracked taken readable ‹_›
  | trackWorkerCallback position now settlement =>
      obtain ⟨body, rest, taken, ⟨unreadable, rfl⟩ | ⟨payload, readable, rfl⟩⟩ :=
        deliver_cases stepped
      · exact rejected_of_read taken rfl unreadable
      · split
        · exact .thrown
        · exact .workerTracked taken readable ‹_›
  | trackMergeCallback position now settlement =>
      obtain ⟨body, rest, taken, ⟨unreadable, rfl⟩ | ⟨payload, readable, rfl⟩⟩ :=
        deliver_cases stepped
      · exact rejected_of_read taken rfl unreadable
      · exact .mergeTracked taken readable

end Deployment

end EchoProcessing
