/-
How far the bar stays behind the work.

A report adds the truncated share of one worker. What the truncation drops is missing once
for every report, so the lag grows with the reports; where it drops the whole share, the
bar does not move at all.
-/

import EchoProcessing.Tracking.Cap

namespace EchoProcessing.Tracking

open TrackerRepository (incremented)
open TrackerService (divide newTracker)

def ofProcessing (processingId : String) (deliveries : List Delivery) : List Delivery :=
  deliveries.filter (fun delivery => delivery.message.processingId = processingId)

theorem find?_of_runs {processingId : String} {deliveries : List Delivery}
    {trackers finish : Trackers} (reached : tracker.Runs trackers deliveries finish) :
    finish.find? processingId =
      (ofProcessing processingId deliveries).foldl (fun row delivery => delivery.settle row)
        (trackers.find? processingId) := by
  induction deliveries generalizing trackers with
  | nil =>
      obtain rfl := (tracker.runs_nil _ _).mp reached
      rfl
  | cons delivery rest ih =>
      obtain ⟨next, stepped, onward⟩ := (tracker.runs_cons _ _ _ _).mp reached
      rw [ih onward, ← (tracker_step _ _ _).mp stepped, find?_handle]
      unfold ofProcessing
      by_cases own : delivery.message.processingId = processingId
      · rw [if_pos own, List.filter_cons_of_pos (by simpa using own), List.foldl_cons]
      · rw [if_neg own, List.filter_cons_of_neg (by simpa using own)]

def IsReport (totalWorkers : ℤ) (delivery : Delivery) : Prop :=
  ∃ payload, delivery.message = .workerCallback payload ∧
    payload.trackerTotalWorkers = some totalWorkers

/-- What has come in for the processing: its start message and then `count` reports. -/
structure Received (processingId : String) (totalWorkers : ℤ) (count : ℕ)
    (deliveries : List Delivery) : Prop where
  history : ∃ start payload reports, ofProcessing processingId deliveries = start :: reports ∧
    start.message = .start payload ∧ reports.length = count ∧
    ∀ delivery ∈ reports, IsReport totalWorkers delivery

private theorem settle_report {totalWorkers : ℤ} (nonzero : totalWorkers ≠ 0) {delivery : Delivery}
    (report : IsReport totalWorkers delivery) (row : Tracker) :
    delivery.settle (some row) = some (incremented (Int.tdiv 9000 totalWorkers)
      (Int.tdiv (2 * 9000) totalWorkers) delivery.now row) := by
  obtain ⟨message, now⟩ := delivery
  obtain ⟨payload, rfl, total⟩ := report
  simp only [Delivery.settle, Delivery.effect, total, divide, if_neg nonzero]
  rfl

private theorem progress_of_reports {totalWorkers : ℤ} (nonzero : totalWorkers ≠ 0)
    {reports : List Delivery} (only : ∀ delivery ∈ reports, IsReport totalWorkers delivery)
    (row : Tracker) :
    ∃ later, reports.foldl (fun row delivery => delivery.settle row) (some row) = some later ∧
      later.progress = row.progress + reports.length * Int.tdiv 9000 totalWorkers := by
  induction reports generalizing row with
  | nil => exact ⟨row, rfl, by simp⟩
  | cons delivery rest ih =>
      obtain ⟨first, others⟩ := List.forall_mem_cons.mp only
      rw [List.foldl_cons, settle_report nonzero first]
      obtain ⟨later, same, progress⟩ := ih others _
      refine ⟨later, same, ?_⟩
      rw [progress, List.length_cons]
      change row.progress + Int.tdiv 9000 totalWorkers + _ = _
      push_cast
      ring

theorem Received.progress {processingId : String} {totalWorkers : ℤ} {count : ℕ}
    {deliveries : List Delivery} {trackers finish : Trackers}
    (received : Received processingId totalWorkers count deliveries)
    (nonzero : totalWorkers ≠ 0) (absent : trackers.find? processingId = none)
    (reached : tracker.Runs trackers deliveries finish) :
    ∃ row, finish.find? processingId = some row ∧
      row.progress = count * Int.tdiv 9000 totalWorkers := by
  obtain ⟨start, payload, reports, history, starts, rfl, only⟩ := received.history
  have created : start.settle none = some (newTracker payload.processingId start.now) := by
    simp only [Delivery.settle, Delivery.effect, starts]
  obtain ⟨row, same, progress⟩ :=
    progress_of_reports nonzero only (newTracker payload.processingId start.now)
  refine ⟨row, ?_, ?_⟩
  · rw [find?_of_runs reached, history, absent, List.foldl_cons, created, same]
  · rw [progress]
    exact zero_add _

theorem Received.before_last {processingId : String} {totalWorkers : ℤ} {previous : ℕ}
    {deliveries : List Delivery}
    (received : Received processingId totalWorkers (previous + 1) deliveries) :
    ∃ earlier later, deliveries = earlier ++ later ∧
      Received processingId totalWorkers previous earlier := by
  obtain ⟨start, payload, reports, history, starts, length, only⟩ := received.history
  rcases List.eq_nil_or_concat reports with rfl | ⟨before, last, rfl⟩
  · cases length
  · rw [List.concat_eq_append] at history length only
    rw [← List.cons_append] at history
    obtain ⟨earlier, later, split, own, _⟩ := List.filter_eq_append_iff.mp history
    rw [List.length_append] at length
    refine ⟨earlier, later, split, ⟨start, payload, before, own, starts, ?_, ?_⟩⟩
    · exact Nat.succ.inj length
    · intro delivery member
      exact only delivery (List.mem_append_left _ member)

/-- The bar is not ahead of the reports, less than one displayed percent behind them, and
further than it was before the last one. -/
structure FollowsWork (processingId : String) (totalWorkers : ℤ) (count : ℕ)
    (trackers : Trackers) (deliveries : List Delivery) (row : Tracker) : Prop where
  notAhead : (row.progress : ℚ) ≤ 9000 * count / totalWorkers
  notBehind : (9000 * count / totalWorkers : ℚ) - row.progress < 100
  grown : ∀ earlier later previous middle old, deliveries = earlier ++ later →
    count = previous + 1 → Received processingId totalWorkers previous earlier →
    tracker.Runs trackers earlier middle → middle.find? processingId = some old →
    old.progress < row.progress

/-- What the shares of `count` reports drop is less than one percent, and no share is dropped
as a whole. -/
def KeepsUp (totalWorkers : ℤ) (count : ℕ) : Prop :=
  count * (9000 % totalWorkers) < 100 * totalWorkers ∧ (count = 0 ∨ totalWorkers ≤ 9000)

instance (totalWorkers : ℤ) (count : ℕ) : Decidable (KeepsUp totalWorkers count) := by
  unfold KeepsUp
  infer_instance

/-- The remainder of the division is missing once for every report. -/
theorem lag_eq {totalWorkers : ℤ} (positive : 1 ≤ totalWorkers) (count : ℕ) :
    (9000 * count / totalWorkers : ℚ) - (count * Int.tdiv 9000 totalWorkers : ℤ) =
      (count * (9000 % totalWorkers) : ℤ) / totalWorkers := by
  have nonzero : (totalWorkers : ℚ) ≠ 0 := Int.cast_ne_zero.mpr (by omega)
  have whole : (totalWorkers : ℚ) * (9000 / totalWorkers : ℤ) + (9000 % totalWorkers : ℤ) =
      9000 := by
    exact_mod_cast Int.mul_ediv_add_emod 9000 totalWorkers
  rw [Int.tdiv_eq_ediv_of_nonneg (by decide), eq_div_iff nonzero, sub_mul,
    div_mul_cancel₀ _ nonzero, ← whole]
  push_cast
  ring

private theorem notAhead_of_progress {totalWorkers : ℤ} (positive : 1 ≤ totalWorkers) (count : ℕ) :
    ((count * Int.tdiv 9000 totalWorkers : ℤ) : ℚ) ≤ 9000 * count / totalWorkers := by
  have lag := lag_eq positive count
  have rest : 0 ≤ (count : ℤ) * (9000 % totalWorkers) :=
    mul_nonneg (Int.natCast_nonneg count) (Int.emod_nonneg 9000 (by omega))
  have behind : (0 : ℚ) ≤ (count * (9000 % totalWorkers) : ℤ) / totalWorkers :=
    div_nonneg (Int.cast_nonneg rest) (Int.cast_nonneg (by omega))
  linarith

private theorem notBehind_iff {totalWorkers : ℤ} (positive : 1 ≤ totalWorkers) (count : ℕ) :
    (9000 * count / totalWorkers : ℚ) - (count * Int.tdiv 9000 totalWorkers : ℤ) < 100 ↔
      count * (9000 % totalWorkers) < 100 * totalWorkers := by
  have divisor : (0 : ℚ) < totalWorkers := Int.cast_pos.mpr (by omega)
  rw [lag_eq positive, div_lt_iff₀ divisor]
  norm_cast

private theorem share_pos_iff {totalWorkers : ℤ} (positive : 1 ≤ totalWorkers) :
    0 < Int.tdiv 9000 totalWorkers ↔ totalWorkers ≤ 9000 := by
  have zero := (shares_of_pos (by omega : 0 < totalWorkers)).1
  have nonneg : 0 ≤ Int.tdiv 9000 totalWorkers := Int.tdiv_nonneg (by decide) (by omega)
  omega

private theorem followsWork_iff {processingId : String} {totalWorkers : ℤ} {count : ℕ}
    {trackers : Trackers} {deliveries : List Delivery} {row : Tracker}
    (positive : 1 ≤ totalWorkers) (absent : trackers.find? processingId = none)
    (received : Received processingId totalWorkers count deliveries)
    (progress : row.progress = count * Int.tdiv 9000 totalWorkers) :
    FollowsWork processingId totalWorkers count trackers deliveries row ↔
      KeepsUp totalWorkers count := by
  have nonzero : totalWorkers ≠ 0 := by omega
  constructor
  · intro follows
    have behind := follows.notBehind
    rw [progress] at behind
    refine ⟨(notBehind_iff positive count).mp behind, ?_⟩
    cases count with
    | zero => exact Or.inl rfl
    | succ previous =>
        obtain ⟨earlier, later, split, before⟩ := received.before_last
        obtain ⟨middle, toMiddle⟩ := tracker_runs trackers earlier
        obtain ⟨old, found, oldProgress⟩ := before.progress nonzero absent toMiddle
        have grown :=
          follows.grown earlier later previous middle old split rfl before toMiddle found
        rw [oldProgress, progress] at grown
        push_cast at grown
        exact Or.inr ((share_pos_iff positive).mp (by linarith))
  · rintro ⟨small, moves⟩
    refine ⟨?_, ?_, ?_⟩
    · rw [progress]
      exact notAhead_of_progress positive count
    · rw [progress]
      exact (notBehind_iff positive count).mpr small
    · intro earlier later previous middle old split same before toMiddle found
      obtain ⟨other, otherFound, oldProgress⟩ := before.progress nonzero absent toMiddle
      obtain rfl := Option.some.inj (found.symm.trans otherFound)
      have share := (share_pos_iff positive).mpr (moves.resolve_left (by omega))
      rw [oldProgress, progress, same]
      push_cast
      linarith

/-- The bar follows the reports exactly as long as what the truncated shares drop stays below
one percent. -/
theorem bar_follows_work_iff {processingId : String} {totalWorkers : ℤ} {count : ℕ}
    {trackers finish : Trackers} {deliveries : List Delivery} (positive : 1 ≤ totalWorkers)
    (absent : trackers.find? processingId = none)
    (received : Received processingId totalWorkers count deliveries)
    (reached : tracker.Runs trackers deliveries finish) :
    (∃ row, finish.find? processingId = some row ∧
        FollowsWork processingId totalWorkers count trackers deliveries row) ↔
      KeepsUp totalWorkers count := by
  obtain ⟨row, found, progress⟩ := received.progress (by omega) absent reached
  rw [found]
  simp only [Option.some.injEq, exists_eq_left']
  exact followsWork_iff positive absent received progress

/-- From the first report to the last one, only the total decides. -/
theorem keepsUp_throughout_iff {totalWorkers : ℤ} (positive : 1 ≤ totalWorkers) :
    (∀ count : ℕ, count ≤ totalWorkers → KeepsUp totalWorkers count) ↔
      9000 % totalWorkers < 100 := by
  constructor
  · intro throughout
    obtain ⟨last, rfl⟩ := Int.eq_ofNat_of_zero_le (by omega : 0 ≤ totalWorkers)
    have small := (throughout last (le_refl _)).1
    rw [mul_comm] at small
    exact lt_of_mul_lt_mul_right small (by omega)
  · intro small count counted
    have few : totalWorkers ≤ 9000 := by
      by_contra many
      rw [Int.emod_eq_of_lt (by decide) (by omega)] at small
      omega
    have rest : 0 ≤ 9000 % totalWorkers := Int.emod_nonneg 9000 (by omega)
    refine ⟨?_, Or.inr few⟩
    calc (count : ℤ) * (9000 % totalWorkers)
        ≤ totalWorkers * (9000 % totalWorkers) := mul_le_mul_of_nonneg_right counted rest
      _ < totalWorkers * 100 := mul_lt_mul_of_pos_left small (by omega)
      _ = 100 * totalWorkers := mul_comm _ _

namespace Sample

def reportOf (totalWorkers : ℤ) (index : ℕ) : Delivery :=
  { message := .workerCallback
      { callback with
        workerId := toString index
        trackerTotalWorkers := some totalWorkers }
    now := (index + 1) * nanosOfSecond }

def reportsOf (totalWorkers : ℤ) (count : ℕ) : List Delivery :=
  (List.range count).map (reportOf totalWorkers)

private theorem received_reportsOf (totalWorkers : ℤ) (count : ℕ) :
    Received "p" totalWorkers count (started :: reportsOf totalWorkers count) := by
  have reports : ∀ delivery ∈ reportsOf totalWorkers count, ∃ index,
      reportOf totalWorkers index = delivery := by
    intro delivery member
    obtain ⟨index, _, same⟩ := List.mem_map.mp member
    exact ⟨index, same⟩
  have own : ∀ delivery ∈ started :: reportsOf totalWorkers count,
      delivery.message.processingId = "p" := by
    refine List.forall_mem_cons.mpr ⟨rfl, ?_⟩
    intro delivery member
    obtain ⟨index, rfl⟩ := reports delivery member
    rfl
  refine ⟨started, start, reportsOf totalWorkers count, ?_, rfl, ?_, ?_⟩
  · exact List.filter_eq_self.mpr (fun delivery member => decide_eq_true (own delivery member))
  · rw [reportsOf, List.length_map, List.length_range]
  · intro delivery member
    obtain ⟨index, rfl⟩ := reports delivery member
    exact ⟨_, rfl, rfl⟩

private theorem not_followsWork {totalWorkers : ℤ} {count : ℕ} (positive : 1 ≤ totalWorkers)
    (drops : ¬KeepsUp totalWorkers count) :
    ∃ finish row, tracker.Runs KeyedTable.empty (started :: reportsOf totalWorkers count) finish ∧
      finish.find? "p" = some row ∧ row.progress = count * Int.tdiv 9000 totalWorkers ∧
      ¬FollowsWork "p" totalWorkers count KeyedTable.empty
        (started :: reportsOf totalWorkers count) row := by
  have received := received_reportsOf totalWorkers count
  obtain ⟨finish, reached⟩ := tracker_runs KeyedTable.empty
    (started :: reportsOf totalWorkers count)
  obtain ⟨row, found, progress⟩ := received.progress (by omega) rfl reached
  refine ⟨finish, row, reached, found, progress, ?_⟩
  rw [followsWork_iff positive rfl received progress]
  exact drops

end Sample

theorem bar_follows_work_iff_few :
    ∃ finish row, tracker.Runs KeyedTable.empty (Sample.started :: Sample.reportsOf 4 2) finish ∧
      finish.find? "p" = some row ∧
      FollowsWork "p" 4 2 KeyedTable.empty (Sample.started :: Sample.reportsOf 4 2) row := by
  obtain ⟨finish, reached⟩ := tracker_runs KeyedTable.empty
    (Sample.started :: Sample.reportsOf 4 2)
  obtain ⟨row, found, follows⟩ := (bar_follows_work_iff (by decide) rfl
    (Sample.received_reportsOf 4 2) reached).mpr (by decide)
  exact ⟨finish, row, reached, found, follows⟩

/-- With 114 workers the bar ends 108 short of its 9000; with 9001 it does not move. -/
theorem bar_falls_behind :
    (∃ finish row, tracker.Runs KeyedTable.empty (Sample.started :: Sample.reportsOf 114 114)
        finish ∧ finish.find? "p" = some row ∧ row.progress = 8892 ∧
      ¬FollowsWork "p" 114 114 KeyedTable.empty
        (Sample.started :: Sample.reportsOf 114 114) row) ∧
    ∃ finish row, tracker.Runs KeyedTable.empty (Sample.started :: Sample.reportsOf 9001 1)
        finish ∧ finish.find? "p" = some row ∧ row.progress = 0 ∧
      ¬FollowsWork "p" 9001 1 KeyedTable.empty
        (Sample.started :: Sample.reportsOf 9001 1) row := by
  constructor
  · exact Sample.not_followsWork (by decide) (by decide)
  · exact Sample.not_followsWork (by decide) (by decide)

end EchoProcessing.Tracking
