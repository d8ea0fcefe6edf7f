/-
What a user is told about a processing.

The response to a request carries the id of its processing, and the tracker answers for
that id. Three queues lead to the tracker: a merge callback that overtakes the start
message finds no row, and the bar of its processing is never filled.
-/

import EchoProcessing.Platform.Custody
import EchoProcessing.Tracking.Controller

namespace EchoProcessing

open Messaging Orchestrator

namespace Platform

theorem full_of_runs {events : List Event} {platform image : Platform}
    (run : machine.Runs platform events image) (sound : Sound platform) {processingId : String}
    (full : Tracking.Full platform.trackers processingId) :
    Tracking.Full image.trackers processingId := by
  have preserved : ∀ state event next,
      (Sound state ∧ Tracking.Full state.trackers processingId) →
      machine.step state event = some next →
      (Sound next ∧ Tracking.Full next.trackers processingId) := by
    rintro state event next ⟨holds, before⟩ stepped
    have transition := step_transition stepped
    refine ⟨transition.sound holds, ?_⟩
    cases transition with
    | tracked offered => exact before.handle (holds.positiveTotals offered)
    | _ => exact before
  exact (run.invariant preserved ⟨sound, full⟩).2

end Platform

namespace Deployment

/-- A merge callback is not delivered to the tracker before the start message. -/
def KeepsTrackerOrder (deployment : Deployment) : Event → Prop
  | .trackMergeCallback position _ _ =>
      ∀ taken ∈ (deployment.queue .trackerMergeCallback).take? position,
        ∀ payload ∈ MergeCallback.tracker taken.1,
          deployment.trackers.find? payload.processingId ≠ none
  | _ => True

instance KeepsTrackerOrder.decidable (deployment : Deployment) :
    (event : Event) → Decidable (deployment.KeepsTrackerOrder event)
  | .trackMergeCallback position _ _ => inferInstanceAs (Decidable (∀ taken ∈
      (deployment.queue .trackerMergeCallback).take? position,
        ∀ payload ∈ MergeCallback.tracker taken.1,
          deployment.trackers.find? payload.processingId ≠ none))
  | .connect _ | .post _ _ | .receive _ _ _ | .createOrchestrator _ | .createWorkers _ _ _ _
  | .startEchoWorker _ _ _ | .acknowledge _ | .stop _ | .work _ _ | .report _ _ | .fail _
  | .restart _ | .lose _ _ | .callback _ _ _ _ _ | .merge _ _ | .mergeCallback _ _
  | .trackStart _ _ _ | .trackWorkerCallback _ _ _ => isTrue trivial

private theorem Consumed.of_trackerMergeCallback {deployment next : Deployment} {event : Event}
    {key : RoutingKey} {sent : List Json} {message : Image.EchoMergeCallbackMessage}
    (consumed : Consumed deployment next event key sent .trackerMergeCallback
      (MergeCallback.message.write message))
    (ordered : deployment.KeepsTrackerOrder event) :
    Tracking.Full next.trackers message.processingId := by
  generalize written : MergeCallback.message.write message = body at consumed
  cases consumed with
  | trackerMergeCallback own taken returned =>
      obtain rfl := MergeCallback.message.write_injective written
      subst own
      rw [returned]
      exact Tracking.full_finishProcessing _
        (ordered _ taken _ (tracker_mergeCallback message))

/-- A merge callback is pending for the tracker until the bar is full. -/
def Reported (deployment : Deployment) (platform : Platform) : Prop :=
  ∀ message ∈ platform.mergeCallbacks,
    MergeCallback.message.write message ∈ (deployment.queue .trackerMergeCallback).pending ∨
      Tracking.Full deployment.trackers message.processingId

private theorem reported_initial : Reported initial Platform.initial :=
  fun _ member => by cases member

theorem Reported.step {deployment next : Deployment} {event : Event} {platform image : Platform}
    (reported : Reported deployment platform) (kept : Kept deployment platform)
    (allowed : RequestsWhenConnected deployment event)
    (ordered : deployment.KeepsTrackerOrder event)
    (follows : Follows deployment next event platform image) : Reported next image := by
  obtain ⟨followed, run⟩ := follows.run
  obtain ⟨name, gone, key, sent, exchanges⟩ := follows.exchanges
  have stays : ∀ processingId, Tracking.Full deployment.trackers processingId →
      Tracking.Full next.trackers processingId := by
    intro processingId full
    rw [← kept.refines.agrees.trackers] at full
    rw [← follows.refines.agrees.trackers]
    exact Platform.full_of_runs run kept.steady.sound full
  intro message member
  have published : MergeCallback.message.write message ∈ image.bodies .mergeCallback :=
    List.mem_map_of_mem member
  rcases exchanges.old_or_pending kept.custody allowed published with old | pending
  · have earlier := (List.mem_map_of_injective MergeCallback.message.write_injective).mp old
    rcases reported message earlier with waiting | full
    · rcases exchanges.moves.kept .trackerMergeCallback waiting with still | ⟨rfl, left⟩
      · exact Or.inl still
      · exact Or.inr ((exchanges.consumed _ left).of_trackerMergeCallback ordered)
    · exact Or.inr (stays _ full)
  · exact Or.inl (pending .trackerMergeCallback .tracker (by decide))

private theorem reported_of_runs {events : List Event} {deployment : Deployment}
    (every : machine.EveryStep RequestsWhenConnected initial events)
    (ordered : machine.EveryStep KeepsTrackerOrder initial events)
    (reached : machine.Runs initial events deployment) :
    ∃ platform, Kept deployment platform ∧ Reported deployment platform ∧
      ∀ message, message ∈ platform.startMessages ↔ AcceptedIn events message := by
  obtain ⟨_, platform, _, kept, reported, accepted⟩ :=
    kept_of_runs_with KeepsTrackerOrder Reported
      (fun _ _ _ _ _ kept reported allowed ordered follows =>
        reported.step kept allowed ordered follows)
      reported_initial every ordered reached
  exact ⟨platform, kept, reported, accepted⟩

/-- When nothing is pending any more, the bars of the requested processings are full. -/
theorem Reported.full {deployment : Deployment} {platform : Platform}
    (reported : Reported deployment platform) (kept : Kept deployment platform)
    (quiescent : Quiescent deployment) {message : EchoStartMessage}
    (requested : message ∈ platform.startMessages) :
    Tracking.Full deployment.trackers message.processingId := by
  obtain ⟨merge, _, own, called⟩ := (kept.carriedOut quiescent requested).merged
  have same : (Image.mergeCallback merge).processingId = message.processingId := own.1
  rw [← same]
  apply (reported _ called).resolve_left
  rw [quiescent]
  exact List.not_mem_nil

open Tracking.TrackerController (get)

/-- The tracker answers for the accepted requests alone. Where no merge callback overtakes the
start message, and nothing is pending any more, it shows each of them as finished. -/
theorem accepted_requests_are_reported {events : List Event} {deployment : Deployment}
    (every : machine.EveryStep RequestsWhenConnected initial events)
    (ordered : machine.EveryStep KeepsTrackerOrder initial events)
    (reached : machine.Runs initial events deployment) (now : Tracking.Instant) :
    (Quiescent deployment → ∀ uuid body entity message, Event.post uuid body ∈ events →
      Controller.ProcessingController.echo uuid body = .ok (entity, message) →
      ∃ response, get deployment.trackers entity.content.processingId false now = .ok response ∧
        100 ≤ response.progress) ∧
      ∀ processingId response, get deployment.trackers processingId false now = .ok response →
        ∃ message, AcceptedIn events message ∧ message.processingId = processingId := by
  obtain ⟨platform, kept, reported, accepted⟩ := reported_of_runs every ordered reached
  constructor
  · intro quiescent uuid body entity message posted echoed
    have requested := (accepted message).mpr ⟨uuid, body, entity, posted, echoed⟩
    obtain ⟨_, _, own, rfl⟩ :=
      (Controller.ProcessingController.echo_eq_ok_iff _ _ _ _).mp echoed
    have full := reported.full kept quiescent requested
    rw [own] at full
    exact (Tracking.full_iff_get _ _ now).mp full
  · intro processingId response answered
    obtain ⟨row, found, _⟩ := (Tracking.TrackerController.get_eq_ok_iff _).mp answered
    have tracked : platform.trackers.find? processingId ≠ none := by
      rw [kept.refines.agrees.trackers, found]
      exact Option.some_ne_none row
    obtain ⟨message, requested, same⟩ := kept.steady.tracked processingId tracked
    exact ⟨message, (accepted message).mp requested, same⟩

theorem accepted_requests_are_reported_redelivered :
    ∃ deployment response, machine.Runs initial Sample.drained deployment ∧
      get deployment.trackers "p" false 0 = .ok response ∧ 100 ≤ response.progress := by
  have observed : (machine.run initial Sample.drained).map
      (fun deployment => decide deployment.Quiescent) = some true := by
    decide +kernel
  obtain ⟨deployment, reached, value⟩ := Option.map_eq_some_iff.mp observed
  have every : machine.EveryStep RequestsWhenConnected initial Sample.drained := by
    decide +kernel
  have ordered : machine.EveryStep KeepsTrackerOrder initial Sample.drained := by
    decide +kernel
  obtain ⟨response, answered, finished⟩ :=
    (accepted_requests_are_reported every ordered reached 0).1 (of_decide_eq_true value) _ _ _ _
      (by simp [Sample.drained, Sample.redelivered]) Sample.echo_startMessage
  exact ⟨deployment, response, reached, answered, finished⟩

/-- Whatever is delivered to the tracker later, and how often, a processing that it has shown
as finished stays so. -/
theorem full_bar_stays {events later : List Event} {deployment next : Deployment}
    (reached : machine.Runs initial events deployment)
    (continued : machine.Runs deployment later next) {processingId : String}
    {now : Tracking.Instant} {response : Tracking.TrackerResponse}
    (shown : get deployment.trackers processingId false now = .ok response)
    (finished : 100 ≤ response.progress) (date : Tracking.Instant) :
    ∃ another, get next.trackers processingId false date = .ok another ∧
      100 ≤ another.progress := by
  obtain ⟨_, platform, _, refines, sound⟩ := refines_of_runs reached
  obtain ⟨_, image, run, nextRefines, _⟩ := refines.runs sound continued
  have filled := (Tracking.full_iff_get _ _ now).mpr ⟨response, shown, finished⟩
  rw [← refines.agrees.trackers] at filled
  have full := Platform.full_of_runs run sound filled
  rw [nextRefines.agrees.trackers] at full
  exact (Tracking.full_iff_get _ _ date).mp full

namespace Sample

def overtaken : List Event :=
  redelivered ++
    [.callback 0 .none .insertionOrder .committed .acknowledged, .merge 0 .acknowledged,
      .trackMergeCallback 0 10 .acknowledged]

end Sample

theorem full_bar_stays_overtaken :
    ∃ deployment next, machine.Runs initial Sample.overtaken deployment ∧
      machine.Runs deployment [.trackWorkerCallback 0 11 .acknowledged] next ∧
      ∃ response, get next.trackers "p" false 12 = .ok response ∧ 100 ≤ response.progress := by
  have observed : (machine.run initial Sample.overtaken).map (fun deployment =>
      ((machine.run deployment [.trackWorkerCallback 0 11 .acknowledged]).isSome,
        get deployment.trackers "p" false 10)) =
      some (true, .ok
        { processingId := "p", progress := 100, lastRefresh := 10, creationDate := 5 }) := by
    decide +kernel
  obtain ⟨deployment, reached, value⟩ := Option.map_eq_some_iff.mp observed
  obtain ⟨enabled, shown⟩ := Prod.mk.inj value
  obtain ⟨next, continued⟩ := Option.isSome_iff_exists.mp enabled
  exact ⟨deployment, next, reached, continued,
    full_bar_stays reached continued shown (le_refl 100) 12⟩

end Deployment

end EchoProcessing
