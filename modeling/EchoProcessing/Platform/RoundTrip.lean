/-
The number of workers on its way from the grid to the tracker.

A thread writes the total of a message into its context before it works on the
message, so what it reports is the total of that message, whatever the context held
before. The orchestrator's part of a run is a run of the delivery system.
-/

import EchoProcessing.Orchestrator.Totals
import EchoProcessing.Platform.System

namespace EchoProcessing.Platform

open Orchestrator

/-- The context of a busy thread holds the total of its own message. -/
def ThreadsReady (platform : Platform) : Prop :=
  ∀ thread message, (platform.threads thread).running = some message →
    (platform.threads thread).totalWorkers = some message.trackerTotalWorkers ∧
      message ∈ platform.orchestrator.workerMessages

private theorem threadsReady_initial : ThreadsReady initial := by
  intro thread message running
  cases running

theorem ThreadsReady.setThread {platform : Platform} (ready : ThreadsReady platform)
    (thread : ℕ) {content : WorkerThread}
    (own : ∀ message, content.running = some message →
      content.totalWorkers = some message.trackerTotalWorkers ∧
        message ∈ platform.orchestrator.workerMessages) :
    ThreadsReady (platform.setThread thread content) :=
  (Function.forall_update_iff platform.threads (fun _ current => ∀ message,
    current.running = some message →
      current.totalWorkers = some message.trackerTotalWorkers ∧
        message ∈ platform.orchestrator.workerMessages)).mpr
    ⟨own, fun other _ => ready other⟩

theorem ThreadsReady.callback_eq {platform : Platform} (ready : ThreadsReady platform)
    {thread : ℕ} {message : EchoWorkerMessage}
    (running : (platform.threads thread).running = some message) :
    (platform.threads thread).callback message = message.callback := by
  unfold WorkerThread.callback
  rw [(ready thread message running).1]
  rfl

private theorem Transition.threadsReady {platform next : Platform} {event : Event}
    (transition : Transition platform event next) (ready : ThreadsReady platform) :
    ThreadsReady next := by
  have released : ∀ thread message,
      (platform.threads thread).release.running = some message →
      (platform.threads thread).release.totalWorkers = some message.trackerTotalWorkers ∧
        message ∈ platform.orchestrator.workerMessages := by
    intro thread message running
    cases running
  cases transition with
  | requested fresh => exact ready
  | orchestrated accepted stepped =>
      intro thread message running
      obtain ⟨total, member⟩ := ready thread message running
      exact ⟨total, workerMessages_of_step stepped member⟩
  | @received thread message free published =>
      apply ready.setThread
      intro other running
      cases running
      exact ⟨rfl, published⟩
  | @reported thread message running =>
      have published : ThreadsReady
          (platform.published ((platform.threads thread).callback message)) := ready
      exact published.setThread thread (released thread)
  | failed => exact ready.setThread _ (released _)
  | restarted =>
      apply ready.setThread
      intro message running
      cases running
  | merged published => exact ready
  | mergeHandled published => exact ready
  | tracked offered => exact ready

theorem Transition.orchestrator_step {platform next : Platform} {event : Event}
    (transition : Transition platform event next) (ready : ThreadsReady platform) :
    next.orchestrator = platform.orchestrator ∨
      ∃ inner, delivery.step platform.orchestrator inner = some next.orchestrator ∧
        Requested platform.startMessages inner ∧ next.startMessages = platform.startMessages := by
  cases transition with
  | @orchestrated event system accepted stepped =>
      refine Or.inr ⟨event, stepped, ?_, rfl⟩
      cases event with
      | receive handler message => exact accepted
      | _ => trivial
  | @reported thread message running =>
      refine Or.inr ⟨.work message, ?_, trivial, rfl⟩
      obtain ⟨_, member⟩ := ready thread message running
      rw [(Performs.work member).step, ← ready.callback_eq running]
      rfl
  | requested fresh => exact Or.inl rfl
  | received free published => exact Or.inl rfl
  | failed => exact Or.inl rfl
  | restarted => exact Or.inl rfl
  | merged published => exact Or.inl rfl
  | mergeHandled published => exact Or.inl rfl
  | tracked offered => exact Or.inl rfl

structure Sound (platform : Platform) : Prop where
  threads : ThreadsReady platform
  owned : Owned platform.orchestrator
  counted : Counted platform.startMessages platform.orchestrator

theorem sound_initial : Sound initial :=
  { threads := threadsReady_initial
    owned := owned_initial
    counted := counted_initial (fun _ member => by cases member) }

theorem Transition.sound {platform next : Platform} {event : Event}
    (transition : Transition platform event next) (sound : Sound platform) : Sound next := by
  have threads := transition.threadsReady sound.threads
  rcases transition.orchestrator_step sound.threads with same | ⟨inner, stepped, requested, starts⟩
  · refine { threads := threads, owned := same ▸ sound.owned, counted := ?_ }
    rw [same]
    cases transition with
    | requested fresh => exact sound.counted.request fresh
    | _ => exact sound.counted
  · refine { threads := threads, owned := owned_step sound.owned stepped, counted := ?_ }
    rw [starts]
    exact (Orchestrator.step_transition stepped).counted sound.owned requested sound.counted

theorem sound_of_runs {events : List Event} {platform : Platform}
    (reached : machine.Runs initial events platform) : Sound platform :=
  reached.invariant (fun _ _ _ sound stepped => (step_transition stepped).sound sound)
    sound_initial

open EchoWorkerRepository in
/-- The number is the one of the worker rows, and of the tiles of the image. -/
def IsTotal (platform : Platform) (message : EchoStartMessage) (total : ℤ) : Prop :=
  total = (ofProcessing platform.orchestrator.db message.processingId).length ∧
    total = tileCount message ∧ 1 ≤ total

private theorem isTotal_of_matchesGrid {platform : Platform} {message : EchoStartMessage}
    (grid : MatchesGrid message platform.orchestrator.db) :
    IsTotal platform message (tileCount message) := by
  have positive := grid.one_le_tileCount
  exact ⟨by rw [grid.length_rows], rfl, by exact_mod_cast positive⟩

private theorem Sound.isTotal_of_worker {platform : Platform} (sound : Sound platform)
    {source : EchoWorkerMessage} (published : source ∈ platform.orchestrator.workerMessages)
    {message : EchoStartMessage} (requested : message ∈ platform.startMessages)
    (same : source.processingId = message.processingId) :
    IsTotal platform message source.trackerTotalWorkers := by
  obtain ⟨other, otherRequested, otherSame, grid, total⟩ :=
    sound.counted.totals source published
  obtain rfl : other = message :=
    sound.counted.distinct other otherRequested message requested (otherSame.symm.trans same)
  rw [total]
  exact isTotal_of_matchesGrid grid

structure TotalsKept (platform : Platform) (message : EchoStartMessage) : Prop where
  rows : EchoWorkerRepository.ofProcessing platform.orchestrator.db message.processingId ≠ [] →
    IsTotal platform message (tileCount message)
  workers : ∀ source ∈ platform.orchestrator.workerMessages,
    source.processingId = message.processingId →
      IsTotal platform message source.trackerTotalWorkers
  callbacks : ∀ callback ∈ platform.orchestrator.callbackMessages,
    callback.processingId = message.processingId →
      ∃ total, callback.trackerTotalWorkers = some total ∧ IsTotal platform message total

private theorem Sound.totalsKept {platform : Platform} (sound : Sound platform)
    {message : EchoStartMessage} (requested : message ∈ platform.startMessages) :
    TotalsKept platform message := by
  refine ⟨?_, fun source published => sound.isTotal_of_worker published requested, ?_⟩
  · intro present
    exact isTotal_of_matchesGrid ((sound.counted.grids message requested).resolve_left present)
  intro callback published same
  obtain ⟨source, sourceMember, rfl⟩ := sound.owned.consistent.callbackMessages callback published
  exact ⟨source.trackerTotalWorkers, rfl, sound.isTotal_of_worker sourceMember requested same⟩

theorem receiveWorkerCallbackMessage_of_total (trackers : Tracking.Trackers)
    {payload : Tracking.EchoWorkerCallbackMessage} {totalWorkers : ℤ} (now : Tracking.Instant)
    (total : payload.trackerTotalWorkers = some totalWorkers) (nonzero : totalWorkers ≠ 0) :
    ∃ next, Tracking.Listener.receiveWorkerCallbackMessage trackers payload now = .ok next := by
  simp only [Tracking.Listener.receiveWorkerCallbackMessage, total,
    Tracking.TrackerService.updateProcessingWhenWorkerFinished, Tracking.TrackerService.divide,
    if_neg nonzero]
  exact ⟨_, rfl⟩

/-- Every message with a total belongs to one requested processing and carries the number
of its tiles; the tracker can divide by what it receives. -/
theorem total_survives_round_trip {events : List Event} {platform : Platform}
    (reached : machine.Runs initial events platform) :
    (∀ message ∈ platform.startMessages, TotalsKept platform message) ∧
      (∀ callback ∈ platform.orchestrator.callbackMessages,
        ∃ message ∈ platform.startMessages, callback.processingId = message.processingId) ∧
      (∀ source ∈ platform.orchestrator.workerMessages,
        ∃ message ∈ platform.startMessages, source.processingId = message.processingId) ∧
      ∀ callback ∈ platform.orchestrator.callbackMessages, ∀ trackers now, ∃ next,
        Tracking.Listener.receiveWorkerCallbackMessage trackers (trackerCallback callback) now =
          .ok next := by
  have sound := sound_of_runs reached
  have workers : ∀ source ∈ platform.orchestrator.workerMessages,
      ∃ message ∈ platform.startMessages, source.processingId = message.processingId := by
    intro source published
    obtain ⟨message, requested, same, _⟩ := sound.counted.totals source published
    exact ⟨message, requested, same⟩
  have callbacks : ∀ callback ∈ platform.orchestrator.callbackMessages,
      ∃ message ∈ platform.startMessages, callback.processingId = message.processingId := by
    intro callback published
    obtain ⟨source, sourceMember, rfl⟩ :=
      sound.owned.consistent.callbackMessages callback published
    exact workers source sourceMember
  refine ⟨fun message requested => sound.totalsKept requested, callbacks, workers, ?_⟩
  intro callback published trackers now
  obtain ⟨message, requested, same⟩ := callbacks callback published
  obtain ⟨total, carried, _, _, positive⟩ :=
    (sound.totalsKept requested).callbacks callback published same
  exact receiveWorkerCallbackMessage_of_total trackers now carried (by omega)

namespace Sample

open Orchestrator.Sample (startMessage workerMessage untilStarted twoTiles leftMessage)

def other : EchoStartMessage :=
  { twoTiles with processingId := "q" }

def otherTile : EchoWorkerMessage :=
  { leftMessage with processingId := "q" }

def otherStarted : List Orchestrator.Event :=
  [.receive 0 other, .createOrchestrator 0,
    .createWorkers 0 .none (fun index => if index = 0 then "v" else "u") .insertionOrder,
    .startEchoWorker 0 .none .committed, .startEchoWorker 0 .none .committed]

/-- One thread renders the only tile of the first processing and then, at its second attempt,
the left one of the other. -/
def reported : List Event :=
  [.request startMessage, .request other] ++
    (untilStarted .committed ++ .acknowledge 0 :: otherStarted).map Event.orchestrate ++
    [.receiveMessage 0 workerMessage, .report 0, .receiveMessage 0 otherTile, .fail 0,
      .receiveMessage 0 otherTile, .report 0]

end Sample

theorem total_survives_round_trip_two_processings :
    ∃ platform, machine.Runs initial Sample.reported platform ∧
      TotalsKept platform Orchestrator.Sample.startMessage ∧ TotalsKept platform Sample.other ∧
      platform.orchestrator.callbackMessages.map
        (fun callback => (callback.processingId, callback.trackerTotalWorkers)) =
        [("p", some 1), ("q", some 2)] ∧
      ∀ trackers now, ∃ next, Tracking.Listener.receiveWorkerCallbackMessage trackers
        (trackerCallback Sample.otherTile.callback) now = .ok next := by
  have observed : (machine.run initial Sample.reported).map
      (fun platform => (platform.startMessages, platform.orchestrator.callbackMessages)) =
      some ([Orchestrator.Sample.startMessage, Sample.other],
        [Orchestrator.Sample.workerMessage.callback, Sample.otherTile.callback]) := by
    decide +kernel
  obtain ⟨platform, reached, values⟩ := Option.map_eq_some_iff.mp observed
  obtain ⟨starts, callbacks⟩ := Prod.mk.inj values
  have facts := total_survives_round_trip reached
  refine ⟨platform, reached, facts.1 _ (starts ▸ List.mem_cons_self),
    facts.1 _ (starts ▸ List.mem_cons_of_mem _ (List.mem_singleton_self _)), ?_, ?_⟩
  · rw [callbacks]
    rfl
  · exact facts.2.2.2 _ (callbacks ▸ List.mem_cons_of_mem _ (List.mem_singleton_self _))

end EchoProcessing.Platform
