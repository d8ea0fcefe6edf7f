/-
The services together: controller, orchestrator, worker threads, merger and tracker.

Every published message is kept, so it can be delivered in any order and any number of
times. A worker thread has a context of its own, which the listener writes and the
service reads when it reports; nothing clears it between two messages.
-/

import EchoProcessing.Image.Rendering
import EchoProcessing.Tracking.Service

namespace EchoProcessing

open Orchestrator Image

/-- A listener thread of a worker. -/
structure WorkerThread where
  /-- `Context.totalWorkers`: null until the first message, and kept from one to the next. -/
  totalWorkers : Option ℤ
  running : Option EchoWorkerMessage

def WorkerThread.new : WorkerThread :=
  { totalWorkers := none, running := none }

namespace WorkerThread

/-- `Listener.receiveMessage` up to the call of the service. -/
def receiveMessage (payload : EchoWorkerMessage) : WorkerThread :=
  { totalWorkers := some payload.trackerTotalWorkers, running := some payload }

/-- What `EchoWorkerService.start` publishes, with the total of the context. -/
def callback (thread : WorkerThread) (message : EchoWorkerMessage) : EchoWorkerCallbackMessage :=
  { processingId := message.processingId
    workerId := message.workerId
    imageURL := tileURL message.processingId message.workerId
    trackerTotalWorkers := thread.totalWorkers }

/-- The context stays when a message is done with, by a return or by an exception. -/
def release (thread : WorkerThread) : WorkerThread :=
  { thread with running := none }

end WorkerThread

structure Platform where
  startMessages : List Orchestrator.EchoStartMessage
  orchestrator : Orchestrator.System
  threads : ℕ → WorkerThread
  mergeCallbacks : List EchoMergeCallbackMessage
  trackers : Tracking.Trackers

namespace Platform

def initial : Platform :=
  { startMessages := []
    orchestrator := Orchestrator.System.initial Database.empty
    threads := fun _ => .new
    mergeCallbacks := []
    trackers := KeyedTable.empty }

inductive Event where
  /-- The controller publishes the start message of a new processing. -/
  | request (message : Orchestrator.EchoStartMessage)
  | orchestrate (event : Orchestrator.Event)
  | receiveMessage (thread : ℕ) (message : EchoWorkerMessage)
  /-- The tile is rendered or found, and the callback is published. -/
  | report (thread : ℕ)
  /-- The service throws, and the thread goes on with its next message. -/
  | fail (thread : ℕ)
  /-- The process ends, and a new one takes its place. -/
  | restart (thread : ℕ)
  | merge (message : EchoMergeMessage)
  /-- The orchestrator handles a merge callback: `EchoService.mergeCallback` is empty. -/
  | mergeCallback (message : EchoMergeCallbackMessage)
  | track (delivery : Tracking.Delivery)

/-- The orchestrator receives start messages that were requested. The worker threads
take the place of its own event for a worker. -/
def Accepts (platform : Platform) : Orchestrator.Event → Prop
  | .receive _ message => message ∈ platform.startMessages
  | .work _ => False
  | _ => True

instance (platform : Platform) (event : Orchestrator.Event) :
    Decidable (platform.Accepts event) :=
  match event with
  | .receive _ message => inferInstanceAs (Decidable (message ∈ platform.startMessages))
  | .work _ => .isFalse id
  | .createOrchestrator _ => .isTrue trivial
  | .createWorkers _ _ _ _ => .isTrue trivial
  | .startEchoWorker _ _ _ => .isTrue trivial
  | .acknowledge _ => .isTrue trivial
  | .stop _ => .isTrue trivial
  | .callback _ _ _ => .isTrue trivial

def trackerStart (message : Orchestrator.EchoStartMessage) : Tracking.EchoStartMessage :=
  { processingId := message.processingId
    imageURL := message.imageURL
    aoi := message.aoi }

def trackerCallback (message : Orchestrator.EchoWorkerCallbackMessage) :
    Tracking.EchoWorkerCallbackMessage :=
  { processingId := message.processingId
    workerId := message.workerId
    imageURL := message.imageURL
    trackerTotalWorkers := message.trackerTotalWorkers }

/-- A merge callback carries no area; the listener reads none. -/
def Offered (platform : Platform) : Tracking.Message → Prop
  | .start payload => payload ∈ platform.startMessages.map trackerStart
  | .workerCallback payload =>
      payload ∈ platform.orchestrator.callbackMessages.map trackerCallback
  | .mergeCallback payload => ∃ message ∈ platform.mergeCallbacks,
      message.processingId = payload.processingId ∧ message.imageURL = payload.imageURL

instance (platform : Platform) (message : Tracking.Message) :
    Decidable (platform.Offered message) :=
  match message with
  | .start payload => inferInstanceAs (Decidable (payload ∈ platform.startMessages.map _))
  | .workerCallback payload =>
      inferInstanceAs (Decidable (payload ∈ platform.orchestrator.callbackMessages.map _))
  | .mergeCallback _ => inferInstanceAs (Decidable (∃ message ∈ platform.mergeCallbacks, _))

/-- A processing id is a random UUID, so it is a new one. -/
def request (platform : Platform) (message : Orchestrator.EchoStartMessage) : Option Platform :=
  if ∀ earlier ∈ platform.startMessages, earlier.processingId ≠ message.processingId then
    some { platform with startMessages := platform.startMessages ++ [message] }
  else none

def orchestrate (platform : Platform) (event : Orchestrator.Event) : Option Platform :=
  if platform.Accepts event then
    (delivery.step platform.orchestrator event).map
      (fun next => { platform with orchestrator := next })
  else none

def setThread (platform : Platform) (thread : ℕ) (content : WorkerThread) : Platform :=
  { platform with threads := Function.update platform.threads thread content }

def receiveMessage (platform : Platform) (thread : ℕ) (message : EchoWorkerMessage) :
    Option Platform :=
  if (platform.threads thread).running = none ∧
      message ∈ platform.orchestrator.workerMessages then
    some (platform.setThread thread (.receiveMessage message))
  else none

def published (platform : Platform) (message : EchoWorkerCallbackMessage) : Platform :=
  { platform with
    orchestrator := { platform.orchestrator with
      callbackMessages := platform.orchestrator.callbackMessages ++ [message] } }

def report (platform : Platform) (thread : ℕ) : Option Platform :=
  match (platform.threads thread).running with
  | none => none
  | some message =>
      some ((platform.published ((platform.threads thread).callback message)).setThread thread
        (platform.threads thread).release)

def merge (platform : Platform) (message : EchoMergeMessage) : Option Platform :=
  if message ∈ platform.orchestrator.mergeMessages then
    some { platform with
      mergeCallbacks := platform.mergeCallbacks ++ [Image.mergeCallback message] }
  else none

def mergeCallback (platform : Platform) (message : EchoMergeCallbackMessage) : Option Platform :=
  if message ∈ platform.mergeCallbacks then some platform else none

def track (platform : Platform) (delivery : Tracking.Delivery) : Option Platform :=
  if platform.Offered delivery.message then
    some { platform with trackers := Tracking.handle platform.trackers delivery }
  else none

def step (platform : Platform) : Event → Option Platform
  | .request message => platform.request message
  | .orchestrate event => platform.orchestrate event
  | .receiveMessage thread message => platform.receiveMessage thread message
  | .report thread => platform.report thread
  | .fail thread => some (platform.setThread thread (platform.threads thread).release)
  | .restart thread => some (platform.setThread thread .new)
  | .merge message => platform.merge message
  | .mergeCallback message => platform.mergeCallback message
  | .track delivery => platform.track delivery

/-- Every interleaving of the services is a run. -/
def machine : Machine Platform Event where
  step := step

/-- One constructor for each kind of event, guards included. -/
inductive Transition (platform : Platform) : Event → Platform → Prop where
  | requested {message}
      (fresh : ∀ earlier ∈ platform.startMessages, earlier.processingId ≠ message.processingId) :
      Transition platform (.request message)
        { platform with startMessages := platform.startMessages ++ [message] }
  | orchestrated {event next} (accepted : platform.Accepts event)
      (stepped : delivery.step platform.orchestrator event = some next) :
      Transition platform (.orchestrate event) { platform with orchestrator := next }
  | received {thread message} (free : (platform.threads thread).running = none)
      (published : message ∈ platform.orchestrator.workerMessages) :
      Transition platform (.receiveMessage thread message)
        (platform.setThread thread (.receiveMessage message))
  | reported {thread message} (running : (platform.threads thread).running = some message) :
      Transition platform (.report thread)
        ((platform.published ((platform.threads thread).callback message)).setThread thread
          (platform.threads thread).release)
  | failed {thread} :
      Transition platform (.fail thread)
        (platform.setThread thread (platform.threads thread).release)
  | restarted {thread} : Transition platform (.restart thread) (platform.setThread thread .new)
  | merged {message} (published : message ∈ platform.orchestrator.mergeMessages) :
      Transition platform (.merge message)
        { platform with mergeCallbacks := platform.mergeCallbacks ++ [Image.mergeCallback message] }
  | mergeHandled {message} (published : message ∈ platform.mergeCallbacks) :
      Transition platform (.mergeCallback message) platform
  | tracked {delivery} (offered : platform.Offered delivery.message) :
      Transition platform (.track delivery)
        { platform with trackers := Tracking.handle platform.trackers delivery }

theorem step_transition {platform next : Platform} {event : Event}
    (stepped : machine.step platform event = some next) : Transition platform event next := by
  cases event with
  | request message =>
      obtain ⟨fresh, same⟩ := Option.ite_none_right_eq_some.mp stepped
      cases same
      exact .requested fresh
  | orchestrate event =>
      obtain ⟨accepted, moved⟩ := Option.ite_none_right_eq_some.mp stepped
      obtain ⟨system, inner, rfl⟩ := Option.map_eq_some_iff.mp moved
      exact .orchestrated accepted inner
  | receiveMessage thread message =>
      obtain ⟨⟨free, published⟩, same⟩ := Option.ite_none_right_eq_some.mp stepped
      cases same
      exact .received free published
  | report thread =>
      change platform.report thread = some next at stepped
      unfold report at stepped
      split at stepped
      · cases stepped
      · rename_i message running
        cases stepped
        exact .reported running
  | fail thread =>
      cases stepped
      exact .failed
  | restart thread =>
      cases stepped
      exact .restarted
  | merge message =>
      obtain ⟨published, same⟩ := Option.ite_none_right_eq_some.mp stepped
      cases same
      exact .merged published
  | mergeCallback message =>
      obtain ⟨published, same⟩ := Option.ite_none_right_eq_some.mp stepped
      cases same
      exact .mergeHandled published
  | track delivery =>
      obtain ⟨offered, same⟩ := Option.ite_none_right_eq_some.mp stepped
      cases same
      exact .tracked offered

end Platform

end EchoProcessing
