/-
Messages that are delivered for ever.

A start message that cannot be started never leaves its queue, and neither does one that the
tracker has a row for already. The first comes from a request, and the second from an
acknowledgement that was lost; no other step brings such a message about, and none takes it
away.
-/

import EchoProcessing.Orchestrator.Start
import EchoProcessing.Platform.Custody

namespace EchoProcessing

open Messaging Orchestrator

namespace Orchestrator

instance (message : EchoStartMessage) : Decidable message.HasCorners :=
  inferInstanceAs (Decidable (_ ∧ _ ∧ _))

instance (message : EchoStartMessage) : Decidable message.Startable :=
  decidable_of_iff
    (0 < message.imageSizeX ∧ 0 < message.imageSizeY ∧ message.HasCorners ∧ message.TextsFit)
    ⟨fun ⟨sizeX, sizeY, corners, texts⟩ =>
      ⟨sizeX, sizeY, corners.1, corners.2.1, corners.2.2, texts⟩,
      fun startable => ⟨startable.sizeX, startable.sizeY, startable.hasCorners, startable.texts⟩⟩

end Orchestrator

namespace Tracking

theorem free_of_receive {trackers next : Trackers} {delivery : Delivery} {processingId : String}
    (returned : receive trackers delivery = .ok next)
    (other : ∀ payload, delivery.message = .start payload → payload.processingId ≠ processingId)
    (free : trackers.find? processingId = none) : next.find? processingId = none := by
  have handled : handle trackers delivery = next := by
    unfold handle
    rw [returned]
  rw [← handled]
  by_contra tracked
  obtain ⟨row, found⟩ := Option.ne_none_iff_exists'.mp tracked
  rw [find?_handle, free] at found
  split at found
  · rename_i own
    rcases settle_cases found with
      impossible | ⟨payload, start, _⟩ | ⟨_, _, _, _, _, _, before, _⟩ | ⟨_, _, _, before, _⟩
    · cases impossible
    · apply other payload start
      rw [start] at own
      exact own
    · cases before
    · cases before
  · cases found

end Tracking

namespace Deployment

/-- What holds in every reachable state, whoever has connected. -/
structure Faithful (deployment : Deployment) (platform : Platform) : Prop where
  refines : Refines deployment platform
  steady : Platform.Steady platform
  distinct : (deployment.queue .trackerStart).pending.Nodup

theorem Requested.unpublished {deployment : Deployment} {event : Event} {platform : Platform}
    {body : Json} (requested : Requested deployment event body)
    (refines : Refines deployment platform) : body ∉ platform.bodies .start := by
  obtain ⟨uuid, request, entity, message, _, echoed, fresh, rfl⟩ := requested
  intro published
  have earlier := (List.mem_map_of_injective Start.message.write_injective).mp published
  have own : message.processingId = uuid :=
    ((Controller.ProcessingController.echo_eq_ok_iff _ _ _ _).mp echoed).2.2.1
  exact fresh (own ▸ refines.drawn message earlier)

theorem Exchanges.distinct {deployment next : Deployment} {event : Event}
    {platform image : Platform} {name : QueueName} {gone sent : List Json} {key : RoutingKey}
    (exchanges : Exchanges deployment next event platform image name gone key sent)
    (refines : Refines deployment platform)
    (distinct : (deployment.queue .trackerStart).pending.Nodup) :
    (next.queue .trackerStart).pending.Nodup := by
  have conserved := exchanges.moves.conserved .trackerStart
  have after : ((deployment.queue .trackerStart).pending ++
      if deployment.broker.topology.Routes (.echo, key) .trackerStart then sent else []).Nodup := by
    split
    · rename_i routed
      obtain ⟨services, declared⟩ := refines.attended.declared
      obtain ⟨service, _, bound⟩ := (declared.routes _ _).mp routed
      have isStart : key = .start := source_of_declaration service bound exchanges.known
      obtain ⟨once, requested⟩ := exchanges.fresh isStart
      apply List.nodup_append'.mpr
      refine ⟨distinct, once, ?_⟩
      intro body old added
      exact (requested body added).unpublished refines (refines.carried .trackerStart body old)
    · rw [List.append_nil]
      exact distinct
  exact (List.nodup_append'.mp (conserved.nodup_iff.mpr after)).1

theorem Faithful.step {deployment next : Deployment} {event : Event} {platform : Platform}
    (faithful : Faithful deployment platform)
    (stepped : machine.step deployment event = some next) :
    ∃ image, Follows deployment next event platform image ∧ Faithful next image := by
  obtain ⟨image, follows⟩ :=
    (step_transition stepped).follows faithful.refines faithful.steady.sound
  obtain ⟨followed, run⟩ := follows.run
  obtain ⟨name, gone, key, sent, exchanges⟩ := follows.exchanges
  exact ⟨image, follows,
    { refines := follows.refines
      steady := Platform.steady_of_runs run faithful.steady
      distinct := exchanges.distinct faithful.refines faithful.distinct }⟩

theorem faithful_initial : Faithful initial Platform.initial :=
  { refines := refines_initial
    steady := Platform.steady_initial
    distinct := List.nodup_nil }

theorem faithful_of_runs {events : List Event} {deployment : Deployment}
    (reached : machine.Runs initial events deployment) :
    ∃ platform, Faithful deployment platform := by
  have preserved : ∀ state event next, (∃ platform, Faithful state platform) →
      machine.step state event = some next → ∃ platform, Faithful next platform := by
    rintro state event next ⟨platform, faithful⟩ stepped
    obtain ⟨image, _, kept⟩ := faithful.step stepped
    exact ⟨image, kept⟩
  exact reached.invariant preserved ⟨_, faithful_initial⟩

/-- A pending start message can be started, and the tracker has no row for one that is pending
for it. -/
structure Deliverable (deployment : Deployment) : Prop where
  startable : ∀ message, Start.message.write message ∈ (deployment.queue .start).pending →
    message.Startable
  untracked : ∀ message, Start.message.write message ∈ (deployment.queue .trackerStart).pending →
    deployment.trackers.find? message.processingId = none

private theorem deliverable_initial : Deliverable initial :=
  { startable := fun _ member => by cases member
    untracked := fun _ member => by cases member }

theorem Quiescent.deliverable {deployment : Deployment} (quiescent : Quiescent deployment) :
    Deliverable deployment := by
  constructor
  · intro message member
    rw [quiescent] at member
    cases member
  · intro message member
    rw [quiescent] at member
    cases member

theorem Deliverable.of_step {deployment next : Deployment} {event : Event} {platform : Platform}
    (faithful : Faithful deployment platform)
    (stepped : machine.step deployment event = some next) (deliverable : Deliverable next) :
    Deliverable deployment := by
  obtain ⟨image, follows, _⟩ := faithful.step stepped
  obtain ⟨followed, run⟩ := follows.run
  obtain ⟨name, gone, key, sent, exchanges⟩ := follows.exchanges
  constructor
  · intro message waiting
    rcases exchanges.moves.kept .start waiting with still | ⟨rfl, left⟩
    · exact deliverable.startable message still
    · obtain ⟨handler, totalWorkers, phase⟩ := (exchanges.consumed _ left).of_start
      have counted := faithful.steady.sound.counted.handlers handler
      rw [faithful.refines.agrees.handlers, phase] at counted
      obtain ⟨_, ⟨grid, gridFor, _⟩, _, texts⟩ := counted
      exact gridFor.startable texts
  · intro message waiting
    rcases exchanges.moves.kept .trackerStart waiting with still | ⟨rfl, left⟩
    · by_contra tracked
      rw [← faithful.refines.agrees.trackers] at tracked
      have grown := Platform.tracked_of_runs run tracked
      rw [follows.refines.agrees.trackers] at grown
      exact grown (deliverable.untracked message still)
    · obtain ⟨now, returned⟩ := (exchanges.consumed _ left).of_trackerStart
      exact Tracking.free_of_receiveStartMessage returned

theorem Deliverable.of_runs {events : List Event} {deployment next : Deployment}
    {platform : Platform} (faithful : Faithful deployment platform)
    (reached : machine.Runs deployment events next) (deliverable : Deliverable next) :
    Deliverable deployment := by
  induction events generalizing deployment platform with
  | nil =>
      obtain rfl := (Machine.runs_nil _ _ _).mp reached
      exact deliverable
  | cons event rest ih =>
      obtain ⟨middle, stepped, onward⟩ := (Machine.runs_cons _ _ _ _ _).mp reached
      obtain ⟨image, _, kept⟩ := faithful.step stepped
      exact (ih kept onward).of_step faithful stepped

/-- An accepted request can be started, and the tracker acknowledges the start messages that
it has handled. -/
def Event.Healthy : Event → Prop
  | .post uuid body =>
      match Controller.ProcessingController.echo uuid body with
      | .ok (_, message) => message.Startable
      | .error _ => True
  | .trackStart _ _ settlement => settlement = .acknowledged
  | _ => True

instance Event.decidableHealthy : (event : Event) → Decidable event.Healthy
  | .post uuid body =>
      match answered : Controller.ProcessingController.echo uuid body with
      | .ok (_, message) =>
          decidable_of_iff message.Startable (by simp only [Event.Healthy, answered])
      | .error _ => isTrue (by simp only [Event.Healthy, answered])
  | .trackStart _ _ settlement => inferInstanceAs (Decidable (settlement = .acknowledged))
  | .connect _ | .receive _ _ _ | .createOrchestrator _ | .createWorkers _ _ _ _
  | .startEchoWorker _ _ _ | .acknowledge _ | .stop _ | .work _ _ | .report _ _ | .fail _
  | .restart _ | .lose _ _ | .callback _ _ _ _ _ | .merge _ _ | .mergeCallback _ _
  | .trackWorkerCallback _ _ _ | .trackMergeCallback _ _ _ => isTrue trivial

theorem Requested.startable {deployment : Deployment} {event : Event}
    {message : EchoStartMessage}
    (requested : Requested deployment event (Start.message.write message))
    (healthy : event.Healthy) : message.Startable := by
  obtain ⟨uuid, request, entity, published, rfl, echoed, _, written⟩ := requested
  obtain rfl := Start.message.write_injective written
  simp only [Event.Healthy, echoed] at healthy
  exact healthy

theorem Requested.untracked {deployment : Deployment} {event : Event} {platform : Platform}
    {message : EchoStartMessage}
    (requested : Requested deployment event (Start.message.write message))
    (faithful : Faithful deployment platform) :
    deployment.trackers.find? message.processingId = none := by
  by_contra tracked
  rw [← faithful.refines.agrees.trackers] at tracked
  obtain ⟨earlier, member, same⟩ := faithful.steady.tracked _ tracked
  obtain ⟨uuid, request, entity, published, _, echoed, fresh, written⟩ := requested
  obtain rfl := Start.message.write_injective written
  have own : message.processingId = uuid :=
    ((Controller.ProcessingController.echo_eq_ok_iff _ _ _ _).mp echoed).2.2.1
  apply fresh
  rw [← own, ← same]
  exact faithful.refines.drawn earlier member

private theorem trackers_giveBackIfIdle (deployment : Deployment) (handler : ℕ) :
    (deployment.giveBackIfIdle handler).trackers = deployment.trackers := by
  unfold giveBackIfIdle
  split <;> rfl

theorem Transition.untracked {deployment next : Deployment} {event : Event}
    (transition : Transition deployment event next) (healthy : event.Healthy) :
    (∀ processingId, deployment.trackers.find? processingId = none →
      next.trackers.find? processingId = none) ∨
    ∃ position now body payload, event = .trackStart position now .acknowledged ∧
      (deployment.queue .trackerStart).take? position = some (body, next.queue .trackerStart) ∧
      Start.tracker body = some payload ∧
      Tracking.Listener.receiveStartMessage deployment.trackers payload now =
        .ok next.trackers := by
  cases transition with
  | @startTracked position now settlement body rest payload trackers taken readable returned =>
      obtain rfl : settlement = .acknowledged := healthy
      refine Or.inr ⟨position, now, body, payload, rfl, ?_, readable, returned⟩
      rw [taken]
      exact congrArg (fun queue => some (body, queue)) (queue_setQueue_self _ _ _).symm
  | @workerTracked position now settlement body rest payload trackers taken readable returned =>
      left
      intro processingId free
      rw [trackers_settle]
      have received : Tracking.receive deployment.trackers
          { message := .workerCallback payload, now := now } = .ok trackers := returned
      exact Tracking.free_of_receive received (fun _ start => by cases start) free
  | @mergeTracked position now settlement body rest payload taken readable =>
      left
      intro processingId free
      rw [trackers_settle]
      have received : Tracking.receive deployment.trackers
          { message := .mergeCallback { processingId := payload.processingId
                                        imageURL := payload.imageURL
                                        aoi := noArea }
            now := now } =
          .ok (Tracking.TrackerService.finishProcessing deployment.trackers payload.processingId
            now) := rfl
      exact Tracking.free_of_receive received (fun _ start => by cases start) free
  | @reported thread settlement message running =>
      left
      cases settlement <;> exact fun _ free => free
  | @calledBack position strategy scan settlement body rest message database published taken
      readable returned =>
      left
      cases settlement <;> exact fun _ free => free
  | @merged position settlement body rest message taken readable =>
      left
      cases settlement <;> exact fun _ free => free
  | @mergeHandled position settlement body rest message taken readable =>
      left
      cases settlement <;> exact fun _ free => free
  | @rejected name position body rest taken unreadable =>
      left
      unfold reject
      split <;> exact fun _ free => free
  | advanced transaction stepped =>
      left
      rw [trackers_giveBackIfIdle]
      exact fun _ free => free
  | _ => exact Or.inl (fun _ free => free)

theorem Deliverable.step {deployment next : Deployment} {event : Event} {platform : Platform}
    (deliverable : Deliverable deployment) (faithful : Faithful deployment platform)
    (healthy : event.Healthy) (stepped : machine.step deployment event = some next) :
    Deliverable next := by
  obtain ⟨image, follows, _⟩ := faithful.step stepped
  obtain ⟨name, gone, key, sent, exchanges⟩ := follows.exchanges
  have requested : ∀ queue body, queue.source = .start → body ∈ sent →
      deployment.broker.topology.Routes (.echo, key) queue → Requested deployment event body := by
    intro queue body source listed routed
    obtain ⟨services, declared⟩ := faithful.refines.attended.declared
    obtain ⟨service, _, bound⟩ := (declared.routes _ _).mp routed
    have own := source_of_declaration service bound exchanges.known
    exact (exchanges.fresh (own.trans source)).2 body listed
  constructor
  · intro message waiting
    rcases exchanges.moves.arrived .start waiting with old | ⟨listed, routed⟩
    · exact deliverable.startable message old
    · exact (requested .start _ rfl listed routed).startable healthy
  · intro message waiting
    rcases (step_transition stepped).untracked healthy with
      kept | ⟨position, now, body, payload, rfl, taken, readable, returned⟩
    · rcases exchanges.moves.arrived .trackerStart waiting with old | ⟨listed, routed⟩
      · exact kept _ (deliverable.untracked message old)
      · exact kept _ ((requested .trackerStart _ rfl listed routed).untracked faithful)
    · have pending := WorkQueue.pending_of_take? taken
      have old : Start.message.write message ∈ (deployment.queue .trackerStart).pending :=
        pending.mem_iff.mpr (List.mem_cons_of_mem body waiting)
      obtain ⟨tracked, member, rfl, rfl⟩ :=
        tracker_read_start (faithful.refines.mem_bodies taken) readable
      have published : message ∈ platform.startMessages :=
        (List.mem_map_of_injective Start.message.write_injective).mp
          (faithful.refines.carried .trackerStart _ old)
      have received : Tracking.receive deployment.trackers
          { message := .start (Platform.trackerStart tracked), now := now } =
            .ok next.trackers := returned
      refine Tracking.free_of_receive received ?_ (deliverable.untracked message old)
      intro payload written same
      cases written
      have distinct := pending.nodup_iff.mp faithful.distinct
      obtain rfl := faithful.steady.sound.counted.distinct tracked member message published same
      exact (List.nodup_cons.mp distinct).1 waiting

theorem deliverable_of_runs {events : List Event} {deployment : Deployment}
    (healthy : ∀ event ∈ events, event.Healthy)
    (reached : machine.Runs initial events deployment) : Deliverable deployment := by
  induction events using List.reverseRecOn generalizing deployment with
  | nil =>
      obtain rfl := (Machine.runs_nil _ _ _).mp reached
      exact deliverable_initial
  | append_singleton events event ih =>
      obtain ⟨last, toLast, stepped⟩ := (Machine.runs_snoc _ _ _ _ _).mp reached
      obtain ⟨earlier, own⟩ := List.forall_mem_append.mp healthy
      obtain ⟨platform, faithful⟩ := faithful_of_runs toLast
      exact (ih earlier toLast).step faithful (own event (List.mem_singleton_self event)) stepped

end Deployment

end EchoProcessing
