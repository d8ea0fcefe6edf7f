/-
Where rows and messages come from.

Whoever has connected, and whatever was redelivered, rolled back or lost: a row is a cell of
the image of an accepted request, and a message names committed rows. The tracker answers
for accepted requests alone, and never shows a bar below zero or above its cap.
-/

import EchoProcessing.Platform.Deliverable
import EchoProcessing.Tracking.Cap
import EchoProcessing.Tracking.Controller

namespace EchoProcessing.Deployment

open Messaging Orchestrator EchoWorkerRepository

theorem requested_of_runs {events : List Event} {deployment : Deployment}
    (reached : machine.Runs initial events deployment) :
    ∃ platform, Faithful deployment platform ∧
      ∀ message ∈ platform.startMessages, AcceptedIn events message := by
  induction events using List.reverseRecOn generalizing deployment with
  | nil =>
      obtain rfl := (Machine.runs_nil _ _ _).mp reached
      exact ⟨_, faithful_initial, fun _ impossible => by cases impossible⟩
  | append_singleton events event ih =>
      obtain ⟨last, toLast, stepped⟩ := (Machine.runs_snoc _ _ _ _ _).mp reached
      obtain ⟨platform, faithful, accepted⟩ := ih toLast
      obtain ⟨image, follows, kept⟩ := faithful.step stepped
      refine ⟨image, kept, ?_⟩
      intro message member
      apply (acceptedIn_append _ _ _).mpr
      exact (follows.requested member).imp (accepted message) id

/-- The row is a cell of the image of an accepted request. -/
def OfRequest (events : List Event) (db : Database) (row : EchoWorker) : Prop :=
  ∃ message, AcceptedIn events message ∧ message.processingId = row.processingId ∧
    message.imageURL = row.imageURL ∧ MatchesGrid message db

/-- The callback names a committed row, the tile of it and the number of rows beside it. -/
def OfRow (db : Database) (callback : EchoWorkerCallbackMessage) : Prop :=
  ∃ row ∈ db.workers.rows, callback.workerId = row.workerId ∧
    callback.processingId = row.processingId ∧
    callback.imageURL = Image.tileURL row.processingId row.workerId ∧
    callback.trackerTotalWorkers = some ((ofProcessing db row.processingId).length : ℤ)

/-- What is stored, pending or held by a thread goes back to the requests of the run. -/
structure Traceable (events : List Event) (deployment : Deployment) : Prop where
  rows : ∀ row ∈ deployment.db.workers.rows, OfRequest events deployment.db row
  workers : ∀ message, workerMessage.write message ∈ (deployment.queue .worker).pending →
    Announced deployment.db message
  rendering : ∀ thread message, (deployment.threads thread).running = some message →
    Announced deployment.db message
  callbacks : ∀ name callback, name.source = .workerCallback →
    WorkerCallback.message.write callback ∈ (deployment.queue name).pending →
      OfRow deployment.db callback
  merges : ∀ merge, mergeMessage.write merge ∈ (deployment.queue .merge).pending →
    Complete deployment.db merge
  results : ∀ name callback, name.source = .mergeCallback →
    MergeCallback.message.write callback ∈ (deployment.queue name).pending →
      ofProcessing deployment.db callback.processingId ≠ [] ∧
        callback.imageURL = Image.resultURL callback.processingId

section

variable {events : List Event} {deployment : Deployment} {platform : Platform}

private theorem Faithful.ofRow (faithful : Faithful deployment platform)
    {callback : EchoWorkerCallbackMessage}
    (published : callback ∈ platform.orchestrator.callbackMessages) :
    OfRow deployment.db callback := by
  have steady := faithful.steady
  have consistent := steady.sound.owned.consistent
  obtain ⟨source, sourceMember, rfl⟩ := consistent.callbackMessages callback published
  obtain ⟨row, member, processing, worker, _⟩ := steady.traced.announced source sourceMember
  obtain ⟨message, requested, own, grid, total⟩ := steady.sound.counted.totals source sourceMember
  rw [← faithful.refines.agrees.db]
  refine ⟨row, member, worker, processing, ?_, ?_⟩
  · change Image.tileURL source.processingId source.workerId = _
    rw [processing, worker]
  · change some source.trackerTotalWorkers = _
    rw [total, ← grid.length_rows, ← processing, own]

private theorem Faithful.traceable (faithful : Faithful deployment platform)
    (accepted : ∀ message ∈ platform.startMessages, AcceptedIn events message) :
    Traceable events deployment := by
  have steady := faithful.steady
  have carried := faithful.refines.carried
  have db := faithful.refines.agrees.db
  refine
    { rows := ?_
      workers := ?_
      rendering := ?_
      callbacks := ?_
      merges := ?_
      results := ?_ }
  · intro row member
    rw [← db] at member ⊢
    obtain ⟨message, requested, own, image⟩ := steady.traced.rows row member
    refine ⟨message, accepted message requested, own, image, ?_⟩
    apply (steady.sound.counted.grids message requested).resolve_left
    exact List.ne_nil_of_mem ((mem_ofProcessing _ _ _).mpr ⟨member, own.symm⟩)
  · intro message pending
    rw [← db]
    apply steady.traced.announced
    exact (List.mem_map_of_injective workerMessage.write_injective).mp (carried .worker _ pending)
  · intro thread message running
    rw [← faithful.refines.agrees.threads] at running
    rw [← db]
    exact steady.traced.announced message (steady.sound.threads thread message running).2
  · intro name callback source pending
    have published := carried name _ pending
    rw [source] at published
    exact faithful.ofRow
      ((List.mem_map_of_injective WorkerCallback.message.write_injective).mp published)
  · intro merge pending
    rw [← db]
    apply steady.traced.complete
    exact (List.mem_map_of_injective mergeMessage.write_injective).mp (carried .merge _ pending)
  · intro name callback source pending
    have published := carried name _ pending
    rw [source] at published
    obtain ⟨merge, member, rfl⟩ := steady.reports callback
      ((List.mem_map_of_injective MergeCallback.message.write_injective).mp published)
    refine ⟨?_, rfl⟩
    rw [← db]
    exact (steady.traced.complete merge member).1

end

theorem rows_and_messages_come_from_requests {events : List Event} {deployment : Deployment}
    (reached : machine.Runs initial events deployment) : Traceable events deployment := by
  obtain ⟨platform, faithful, accepted⟩ := requested_of_runs reached
  exact faithful.traceable accepted

theorem rows_and_messages_come_from_requests_redelivered :
    ∃ deployment, machine.Runs initial Sample.redelivered deployment ∧
      Traceable Sample.redelivered deployment := by
  have enabled : (machine.run initial Sample.redelivered).isSome = true := by
    decide +kernel
  obtain ⟨deployment, reached⟩ := Option.isSome_iff_exists.mp enabled
  exact ⟨deployment, reached, rows_and_messages_come_from_requests reached⟩

open Tracking.TrackerController (get getAll)

/-- The answer is about an accepted request. It stays below the cap of the row, and what is
not estimated is not below zero. -/
structure Bounded (events : List Event) (deployment : Deployment) (estimated : Bool)
    (response : Tracking.TrackerResponse) : Prop where
  requested : ∃ message, AcceptedIn events message ∧
    message.processingId = response.processingId
  capped : ∃ row, deployment.trackers.find? response.processingId = some row ∧
    response.progress ≤ row.maxProgress.tdiv 100
  nonnegative : estimated = false → 0 ≤ response.progress

theorem Faithful.bounded {events : List Event} {deployment : Deployment} {platform : Platform}
    (faithful : Faithful deployment platform)
    (accepted : ∀ message ∈ platform.startMessages, AcceptedIn events message)
    {processingId : String} {estimated : Bool} {now : Tracking.Instant}
    {response : Tracking.TrackerResponse}
    (answered : get deployment.trackers processingId estimated now = .ok response) :
    response.processingId = processingId ∧ Bounded events deployment estimated response := by
  obtain ⟨row, found, rfl⟩ := (Tracking.TrackerController.get_eq_ok_iff _).mp answered
  have own : row.processingId = processingId :=
    ((deployment.trackers.find?_eq_some_iff _ _).mp found).2
  have stored : platform.trackers.find? processingId = some row := by
    rw [faithful.refines.agrees.trackers]
    exact found
  obtain ⟨above, below⟩ := faithful.steady.ordered processingId row stored
  obtain ⟨message, requested, same⟩ := faithful.steady.tracked processingId
    (Option.ne_none_iff_exists'.mpr ⟨row, stored⟩)
  have shown : deployment.trackers.find? row.processingId = some row := own.symm ▸ found
  refine ⟨own, ⟨message, accepted message requested, same.trans own.symm⟩, ⟨row, shown, ?_⟩, ?_⟩
  · cases estimated with
    | false =>
        change Tracking.TrackerService.getProgressPercent row false now ≤ _
        rw [Tracking.getProgressPercent_plain]
        exact Tracking.tdiv_hundred_mono below
    | true => exact Tracking.getProgressPercent_le_cap row now
  · rintro rfl
    change 0 ≤ Tracking.TrackerService.getProgressPercent row false now
    rw [Tracking.getProgressPercent_plain]
    exact Int.tdiv_nonneg above (by decide)

/-- In every reachable state the answers of the tracker are bounded, and a page shows each of
its rows, in its place, as a request for this row alone is answered at the same date. -/
theorem answers_are_bounded {events : List Event} {deployment : Deployment}
    (reached : machine.Runs initial events deployment) (estimated : Bool) :
    (∀ processingId now response,
      get deployment.trackers processingId estimated now = .ok response →
        response.processingId = processingId ∧ Bounded events deployment estimated response) ∧
      ∀ page now, page ⊆ deployment.trackers.rows →
        List.Forall₂ (fun row response =>
          get deployment.trackers row.processingId estimated (now row) = .ok response)
          page (getAll page estimated now) := by
  obtain ⟨platform, faithful, accepted⟩ := requested_of_runs reached
  refine ⟨fun _ _ _ answered => faithful.bounded accepted answered, ?_⟩
  intro page now stored
  apply List.forall₂_map_right_iff.mpr
  apply List.forall₂_same.mpr
  intro row member
  apply Tracking.TrackerController.get_of_found
  exact (deployment.trackers.find?_eq_some_iff _ _).mpr ⟨stored member, rfl⟩

theorem answers_are_bounded_redelivered :
    ∃ deployment, machine.Runs initial Sample.redelivered deployment ∧
      ∃ row response, deployment.trackers.rows = [row] ∧
        get deployment.trackers "p" true 20 = .ok response ∧
        Bounded Sample.redelivered deployment true response ∧
        List.Forall₂ (fun row response =>
          get deployment.trackers row.processingId true 20 = .ok response)
          [row] (getAll [row] true (fun _ => 20)) := by
  have observed : (machine.run initial Sample.redelivered).map
      (fun deployment => (get deployment.trackers "p" true 20, deployment.trackers.rows.length)) =
      some
        (.ok { processingId := "p", progress := 0, lastRefresh := 5, creationDate := 5 }, 1) := by
    decide +kernel
  obtain ⟨deployment, reached, both⟩ := Option.map_eq_some_iff.mp observed
  obtain ⟨answered, single⟩ := Prod.mk.inj both
  obtain ⟨row, rows⟩ := List.length_eq_one_iff.mp single
  have bounded := answers_are_bounded reached true
  exact ⟨deployment, reached, row, _, rows, answered, (bounded.1 "p" 20 _ answered).2,
    bounded.2 [row] (fun _ => 20) (by rw [rows]; exact List.Subset.refl _)⟩

end EchoProcessing.Deployment
