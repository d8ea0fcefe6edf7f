/-
Processings do not interfere.

The events that handle the messages of one processing make a run of their own, in
which its rows and the messages published for it are those of the whole run. What ties
the parts together is that every id in flight names a row of its own processing.
-/

import EchoProcessing.Library.Projection
import EchoProcessing.Orchestrator.Isolation
import EchoProcessing.Platform.RoundTrip
import EchoProcessing.Tracking.Rows

namespace EchoProcessing

open Orchestrator

def WorkerThread.processingId? (thread : WorkerThread) : Option String :=
  thread.running.map EchoWorkerMessage.processingId

/-- A thread that works for the processing is the same one. What the context holds while
it does not is of no interest: the next message overwrites it. -/
def WorkerThread.Mirrors (processingId : String) (thread image : WorkerThread) : Prop :=
  if thread.processingId? = some processingId then image = thread else image.running = none

private theorem WorkerThread.mirrors_of_own {processingId : String} {thread : WorkerThread}
    (own : thread.processingId? = some processingId) : thread.Mirrors processingId thread := by
  rw [WorkerThread.Mirrors, if_pos own]

private theorem WorkerThread.mirrors_of_free {processingId : String} {thread image : WorkerThread}
    (free : thread.running = none) (imageFree : image.running = none) :
    thread.Mirrors processingId image := by
  rw [WorkerThread.Mirrors, WorkerThread.processingId?, free]
  exact imageFree

namespace Platform

def Event.processingId? (platform : Platform) : Event → Option String
  | .request message => some message.processingId
  | .orchestrate event => event.processingId? platform.orchestrator
  | .receiveMessage _ message => some message.processingId
  | .report thread => (platform.threads thread).processingId?
  | .fail thread => (platform.threads thread).processingId?
  | .restart thread => (platform.threads thread).processingId?
  | .merge message => some message.processingId
  | .mergeCallback message => some message.processingId
  | .track delivery => some delivery.message.processingId

def Concerns (processingId : String) (platform : Platform) (event : Event) : Prop :=
  event.processingId? platform = some processingId

instance (processingId : String) (platform : Platform) (event : Event) :
    Decidable (Concerns processingId platform event) :=
  inferInstanceAs (Decidable (_ = _))

/-- Worker ids are pairwise distinct. -/
def Event.DrawsNewIds (platform : Platform) : Event → Prop
  | .orchestrate event => event.DrawsNewIds platform.orchestrator
  | _ => True

instance (event : Event) (platform : Platform) : Decidable (event.DrawsNewIds platform) :=
  match event with
  | .orchestrate event => inferInstanceAs (Decidable (event.DrawsNewIds platform.orchestrator))
  | .request _ => .isTrue trivial
  | .receiveMessage _ _ => .isTrue trivial
  | .report _ => .isTrue trivial
  | .fail _ => .isTrue trivial
  | .restart _ => .isTrue trivial
  | .merge _ => .isTrue trivial
  | .mergeCallback _ => .isTrue trivial
  | .track _ => .isTrue trivial

structure Mirrors (processingId : String) (platform image : Platform) : Prop where
  startMessages : image.startMessages =
    platform.startMessages.filter (fun message => message.processingId = processingId)
  orchestrator : Orchestrator.Mirrors processingId platform.orchestrator image.orchestrator
  threads : ∀ thread, (platform.threads thread).Mirrors processingId (image.threads thread)
  mergeCallbacks : image.mergeCallbacks =
    platform.mergeCallbacks.filter (fun message => message.processingId = processingId)
  tracker : image.trackers.find? processingId = platform.trackers.find? processingId

theorem mirrors_initial (processingId : String) : Mirrors processingId initial initial :=
  { startMessages := rfl
    orchestrator := Orchestrator.mirrors_initial processingId
    threads := fun _ => WorkerThread.mirrors_of_free rfl rfl
    mergeCallbacks := rfl
    tracker := rfl }

namespace Mirrors

variable {processingId : String} {platform image next : Platform}

private theorem thread_eq (mirrors : Mirrors processingId platform image) {thread : ℕ}
    (own : (platform.threads thread).processingId? = some processingId) :
    image.threads thread = platform.threads thread := by
  have facts := mirrors.threads thread
  rwa [WorkerThread.Mirrors, if_pos own] at facts

private theorem thread_free (mirrors : Mirrors processingId platform image) {thread : ℕ}
    (other : (platform.threads thread).processingId? ≠ some processingId) :
    (image.threads thread).running = none := by
  have facts := mirrors.threads thread
  rwa [WorkerThread.Mirrors, if_neg other] at facts

theorem setThread (mirrors : Mirrors processingId platform image) (thread : ℕ)
    {content imageContent : WorkerThread} (same : content.Mirrors processingId imageContent) :
    Mirrors processingId (platform.setThread thread content)
      (image.setThread thread imageContent) :=
  { mirrors with
    threads := by
      intro other
      by_cases here : other = thread
      · subst here
        simpa only [Platform.setThread, Function.update_self] using same
      · simpa only [Platform.setThread, Function.update_of_ne here] using mirrors.threads other }

theorem setThread_unseen (mirrors : Mirrors processingId platform image) {thread : ℕ}
    {content : WorkerThread} (before : (platform.threads thread).processingId? ≠ some processingId)
    (after : content.processingId? ≠ some processingId) :
    Mirrors processingId (platform.setThread thread content) image :=
  { mirrors with
    threads := by
      intro other
      by_cases here : other = thread
      · subst here
        simp only [Platform.setThread, Function.update_self, WorkerThread.Mirrors, if_neg after]
        exact mirrors.thread_free before
      · simpa only [Platform.setThread, Function.update_of_ne here] using mirrors.threads other }

theorem processingId?_eq (mirrors : Mirrors processingId platform image) {event : Event}
    (own : Concerns processingId platform event) : Concerns processingId image event := by
  have busy : ∀ thread, (platform.threads thread).processingId? = some processingId →
      (image.threads thread).processingId? = some processingId := by
    intro thread same
    rw [mirrors.thread_eq same, same]
  cases event with
  | orchestrate event => exact mirrors.orchestrator.processingId?_eq own
  | report thread => exact busy thread own
  | fail thread => exact busy thread own
  | restart thread => exact busy thread own
  | _ => exact own

theorem offered (mirrors : Mirrors processingId platform image) {message : Tracking.Message}
    (own : message.processingId = processingId) (offered : platform.Offered message) :
    image.Offered message := by
  cases message with
  | start payload =>
      obtain ⟨source, requested, rfl⟩ := List.mem_map.mp offered
      apply List.mem_map_of_mem
      rw [mirrors.startMessages]
      exact List.mem_filter.mpr ⟨requested, decide_eq_true own⟩
  | workerCallback payload =>
      obtain ⟨source, published, rfl⟩ := List.mem_map.mp offered
      exact List.mem_map_of_mem (mirrors.orchestrator.mem_callbackMessages published own)
  | mergeCallback payload =>
      obtain ⟨source, published, sameProcessing, sameURL⟩ := offered
      refine ⟨source, ?_, sameProcessing, sameURL⟩
      rw [mirrors.mergeCallbacks]
      exact List.mem_filter.mpr ⟨published, decide_eq_true (sameProcessing.trans own)⟩

theorem accepts (mirrors : Mirrors processingId platform image) {event : Orchestrator.Event}
    (own : event.processingId? platform.orchestrator = some processingId)
    (accepted : platform.Accepts event) : image.Accepts event := by
  cases event with
  | receive handler message =>
      change message ∈ image.startMessages
      rw [mirrors.startMessages]
      exact List.mem_filter.mpr ⟨accepted, decide_eq_true (Option.some.inj own)⟩
  | _ => exact accepted

/-- The events of a processing are enabled on its part, and do the same there. -/
theorem matched (mirrors : Mirrors processingId platform image) (sound : Sound platform)
    {event : Event} (fresh : event.DrawsNewIds platform)
    (own : Concerns processingId platform event)
    (stepped : machine.step platform event = some next) :
    ∃ nextImage, machine.step image event = some nextImage ∧
      Mirrors processingId next nextImage := by
  have idle : ∀ thread : WorkerThread, thread.release.Mirrors processingId thread.release :=
    fun _ => WorkerThread.mirrors_of_free rfl rfl
  cases step_transition stepped with
  | @requested message free =>
      have imageFree : ∀ earlier ∈ image.startMessages,
          earlier.processingId ≠ message.processingId := by
        intro earlier member
        rw [mirrors.startMessages] at member
        exact free earlier (List.mem_filter.mp member).1
      refine ⟨_, if_pos imageFree, { mirrors with startMessages := ?_ }⟩
      have kept : message.processingId = processingId := Option.some.inj own
      simp [mirrors.startMessages, kept]
  | @orchestrated event system accepted inner =>
      obtain ⟨imageSystem, imageStepped, related⟩ :=
        mirrors.orchestrator.matched sound.owned fresh own inner
      refine ⟨{ image with orchestrator := imageSystem }, ?_,
        { mirrors with orchestrator := related }⟩
      change image.orchestrate event = _
      rw [Platform.orchestrate, if_pos (mirrors.accepts own accepted), imageStepped]
      rfl
  | @received thread message free published =>
      have imageFree : (image.threads thread).running = none := by
        apply mirrors.thread_free
        rw [WorkerThread.processingId?, free]
        exact fun same => by cases same
      have imagePublished :=
        mirrors.orchestrator.mem_workerMessages published (Option.some.inj own)
      refine ⟨_, if_pos ⟨imageFree, imagePublished⟩, mirrors.setThread thread ?_⟩
      exact WorkerThread.mirrors_of_own own
  | @reported thread message running =>
      have same := mirrors.thread_eq own
      have sent : Mirrors processingId
          (platform.published ((platform.threads thread).callback message))
          (image.published ((platform.threads thread).callback message)) := by
        refine { mirrors with orchestrator := mirrors.orchestrator.publishCallback ?_ }
        change Option.map _ (platform.threads thread).running = _ at own
        rw [running] at own
        exact Option.some.inj own
      refine ⟨_, ?_, sent.setThread thread (idle (platform.threads thread))⟩
      change image.report thread = _
      simp only [Platform.report, same, running]
  | @failed thread =>
      refine ⟨_, rfl, mirrors.setThread thread ?_⟩
      rw [mirrors.thread_eq own]
      exact idle _
  | @restarted thread =>
      refine ⟨_, rfl, mirrors.setThread thread ?_⟩
      exact idle .new
  | @merged message published =>
      have kept : message.processingId = processingId := Option.some.inj own
      have imagePublished : message ∈ image.orchestrator.mergeMessages := by
        rw [mirrors.orchestrator.mergeMessages]
        exact List.mem_filter.mpr ⟨published, decide_eq_true kept⟩
      refine ⟨_, if_pos imagePublished, { mirrors with mergeCallbacks := ?_ }⟩
      simp [mirrors.mergeCallbacks, Image.mergeCallback, kept]
  | @mergeHandled message published =>
      have imagePublished : message ∈ image.mergeCallbacks := by
        rw [mirrors.mergeCallbacks]
        exact List.mem_filter.mpr ⟨published, decide_eq_true (Option.some.inj own)⟩
      exact ⟨_, if_pos imagePublished, mirrors⟩
  | @tracked delivery isOffered =>
      have kept : delivery.message.processingId = processingId := Option.some.inj own
      refine ⟨_, if_pos (mirrors.offered kept isOffered), { mirrors with tracker := ?_ }⟩
      rw [Tracking.find?_handle, Tracking.find?_handle, if_pos kept, if_pos kept, mirrors.tracker]

/-- No event of another processing changes what this one sees. -/
theorem unseen (mirrors : Mirrors processingId platform image) (sound : Sound platform)
    {event : Event} (other : ¬Concerns processingId platform event)
    (stepped : machine.step platform event = some next) : Mirrors processingId next image := by
  have idle : ∀ thread : WorkerThread,
      thread.release.processingId? ≠ some processingId := fun _ same => by cases same
  cases step_transition stepped with
  | @requested message free =>
      have dropped : message.processingId ≠ processingId := fun own => other (congrArg some own)
      exact { mirrors with startMessages := by simp [mirrors.startMessages, dropped] }
  | orchestrated accepted inner =>
      exact { mirrors with orchestrator := mirrors.orchestrator.unseen sound.owned other inner }
  | @received thread message free published =>
      refine mirrors.setThread_unseen ?_ other
      rw [WorkerThread.processingId?, free]
      exact fun same => by cases same
  | @reported thread message running =>
      have foreign : message.processingId ≠ processingId := by
        intro own
        refine other ?_
        change Option.map _ (platform.threads thread).running = _
        rw [running]
        exact congrArg some own
      have sent : Mirrors processingId
          (platform.published ((platform.threads thread).callback message)) image :=
        { mirrors with orchestrator := mirrors.orchestrator.publishCallback_unseen foreign }
      exact sent.setThread_unseen other (idle _)
  | failed => exact mirrors.setThread_unseen other (idle _)
  | restarted => exact mirrors.setThread_unseen other (idle .new)
  | @merged message published =>
      have dropped : message.processingId ≠ processingId := fun own => other (congrArg some own)
      exact { mirrors with
        mergeCallbacks := by simp [mirrors.mergeCallbacks, Image.mergeCallback, dropped] }
  | mergeHandled published => exact mirrors
  | @tracked delivery isOffered =>
      have foreign : delivery.message.processingId ≠ processingId :=
        fun own => other (congrArg some own)
      refine { mirrors with tracker := ?_ }
      rw [Tracking.find?_handle, if_neg foreign, mirrors.tracker]

end Mirrors

/-- The rows of the processing and the messages published for it, in their order. -/
structure SameFor (processingId : String) (platform alone : Platform) : Prop where
  orchestrator :
    EchoOrchestratorRepository.findByProcessingId alone.orchestrator.db processingId =
      EchoOrchestratorRepository.findByProcessingId platform.orchestrator.db processingId
  workers : EchoWorkerRepository.ofProcessing alone.orchestrator.db processingId =
    EchoWorkerRepository.ofProcessing platform.orchestrator.db processingId
  tracker : alone.trackers.find? processingId = platform.trackers.find? processingId
  startMessages : alone.startMessages =
    platform.startMessages.filter (fun message => message.processingId = processingId)
  workerMessages : alone.orchestrator.workerMessages =
    platform.orchestrator.workerMessages.filter
      (fun message => message.processingId = processingId)
  callbackMessages : alone.orchestrator.callbackMessages =
    platform.orchestrator.callbackMessages.filter
      (fun message => message.processingId = processingId)
  mergeMessages : alone.orchestrator.mergeMessages =
    platform.orchestrator.mergeMessages.filter
      (fun message => message.processingId = processingId)
  mergeCallbacks : alone.mergeCallbacks =
    platform.mergeCallbacks.filter (fun message => message.processingId = processingId)

private theorem Mirrors.sameFor {processingId : String} {platform alone : Platform}
    (mirrors : Mirrors processingId platform alone) : SameFor processingId platform alone :=
  { orchestrator := by
      rw [mirrors.orchestrator.db, findByProcessingId_orchestrator_only]
    workers := by rw [mirrors.orchestrator.db, ofProcessing_only]
    tracker := mirrors.tracker
    startMessages := mirrors.startMessages
    workerMessages := mirrors.orchestrator.workerMessages
    callbackMessages := mirrors.orchestrator.callbackMessages
    mergeMessages := mirrors.orchestrator.mergeMessages
    mergeCallbacks := mirrors.mergeCallbacks }

/-- The events of a processing, in their order and without those of the others, are a run
that ends with the same rows and the same messages of it; and its merges list its tiles. -/
theorem processings_do_not_interfere {events : List Event} {platform : Platform}
    (reached : machine.Runs initial events platform)
    (distinct : machine.EveryStep (fun state event => event.DrawsNewIds state) initial events)
    (processingId : String) :
    (∃ alone,
      machine.Runs initial (machine.project (Concerns processingId) initial events) alone ∧
        machine.EveryStep (Concerns processingId) initial
          (machine.project (Concerns processingId) initial events) ∧
        (machine.project (Concerns processingId) initial events).Sublist events ∧
        SameFor processingId platform alone) ∧
      ∀ merge ∈ platform.orchestrator.mergeMessages, merge.processingId = processingId →
        ∀ tile ∈ merge.tileURLs, ∃ row,
          row ∈ EchoWorkerRepository.ofProcessing platform.orchestrator.db processingId ∧
            tile = some (Image.tileURL processingId row.workerId) := by
  constructor
  · have unseen : ∀ state image event next, Sound state → Mirrors processingId state image →
        ¬Concerns processingId state event → machine.step state event = some next →
        Mirrors processingId next image :=
      fun _ _ _ _ sound mirrors other stepped => mirrors.unseen sound other stepped
    obtain ⟨only, alone, toAlone, mirrors⟩ :=
      reached.projected
        (fun _ _ _ sound stepped => (step_transition stepped).sound sound)
        (fun _ _ _ _ sound mirrors fresh own stepped =>
          ⟨mirrors.processingId?_eq own, mirrors.matched sound fresh own stepped⟩)
        unseen sound_initial (mirrors_initial processingId) distinct
    exact ⟨alone, toAlone, only, machine.project_sublist _ _, mirrors.sameFor⟩
  · rintro merge published rfl tile listed
    obtain ⟨workerId, workerListed, same⟩ :=
      (sound_of_runs reached).owned.merges merge published tile listed
    obtain ⟨row, member, rfl⟩ := List.mem_map.mp workerListed
    exact ⟨row, member, same⟩

namespace Sample

open Orchestrator.Sample (startMessage workerMessage)

def otherStart : Orchestrator.EchoStartMessage :=
  { startMessage with processingId := "q" }

def otherWorker : EchoWorkerMessage :=
  { workerMessage with processingId := "q", workerId := "v" }

/-- Two processings in turn, their workers on the same thread. -/
def interleaved : List Event :=
  [.request startMessage, .request otherStart] ++
    ([.receive 0 startMessage, .receive 1 otherStart, .createOrchestrator 1, .createOrchestrator 0,
      .createWorkers 0 .none (fun _ => "w") .insertionOrder,
      .createWorkers 1 .none (fun _ => "v") .insertionOrder,
      .startEchoWorker 1 .none .committed, .startEchoWorker 0 .none .committed]).map
        Event.orchestrate ++
    [.receiveMessage 0 otherWorker, .report 0, .receiveMessage 0 workerMessage, .report 0,
      .orchestrate (.callback workerMessage.callback .insertionOrder .committed),
      .track { message := .start (trackerStart otherStart), now := 0 },
      .track { message := .start (trackerStart startMessage), now := 1 }]

end Sample

theorem processings_do_not_interfere_two_processings :
    ∃ platform alone, machine.Runs initial Sample.interleaved platform ∧
      machine.Runs initial (machine.project (Concerns "p") initial Sample.interleaved) alone ∧
      SameFor "p" platform alone := by
  have enabled : (machine.run initial Sample.interleaved).isSome = true := by decide +kernel
  have distinct : machine.EveryStep (fun state event => event.DrawsNewIds state) initial
      Sample.interleaved := by decide +kernel
  obtain ⟨⟨alone, toAlone, _, _, same⟩, _⟩ :=
    processings_do_not_interfere (machine.runs_get enabled) distinct "p"
  exact ⟨_, alone, machine.runs_get enabled, toAlone, same⟩

end Platform

end EchoProcessing
