/-
How high the cap of the estimate stands while the reports come in.

A report sets the cap one share of the next worker above the bar. The last report of all
has no next worker; with few workers that share goes beyond the full bar.
-/

import EchoProcessing.Tracking.Estimate
import EchoProcessing.Tracking.QueueOrder
import Mathlib.Tactic.IntervalCases

namespace EchoProcessing.Tracking

open TrackerRepository (updated)
open TrackerService (newTracker getProgressPercent)

/-- The cap is between the bar and the full bar, so no estimate is beyond it. -/
structure Capped (row : Tracker) : Prop where
  above : row.progress ≤ row.maxProgress
  below : row.maxProgress ≤ 10000
  percent : ∀ currentDate, getProgressPercent row true currentDate ≤ 100

theorem getProgressPercent_le_cap (row : Tracker) (currentDate : Instant) :
    getProgressPercent row true currentDate ≤ row.maxProgress.tdiv 100 := by
  rw [getProgressPercent_estimated]
  exact min_le_right _ _

private theorem capped_iff (row : Tracker) :
    Capped row ↔ row.progress ≤ row.maxProgress ∧ row.maxProgress ≤ 10000 := by
  constructor
  · intro capped
    exact ⟨capped.above, capped.below⟩
  · rintro ⟨above, below⟩
    refine ⟨above, below, ?_⟩
    intro currentDate
    have cap := getProgressPercent_le_cap row currentDate
    have full : row.maxProgress.tdiv 100 ≤ (10000 : ℤ).tdiv 100 := tdiv_hundred_mono below
    exact cap.trans full

namespace Workload

variable {processingId : String} (workload : Workload processingId)

private theorem length_mul_maxShare_le :
    workload.callbacks.length * workload.maxShare ≤ 18000 := by
  rw [maxShare, Int.tdiv_eq_ediv_of_nonneg (by decide)]
  by_cases none : (workload.callbacks.length : ℤ) = 0
  · rw [none]
    decide
  · exact Int.mul_ediv_self_le none

theorem maxShare_bounds (positive : 0 < workload.callbacks.length) :
    2 * workload.share ≤ workload.maxShare ∧ workload.maxShare ≤ 2 * workload.share + 1 := by
  have divisor : (0 : ℤ) < workload.callbacks.length := by omega
  have rest := Int.lt_ediv_add_one_mul_self 9000 divisor
  have shares := workload.length_mul_share_le
  rw [share, maxShare, Int.tdiv_eq_ediv_of_nonneg (by decide),
    Int.tdiv_eq_ediv_of_nonneg (by decide)] at *
  constructor
  · apply (Int.le_ediv_iff_mul_le divisor).mpr
    linarith
  · apply Int.le_of_lt_add_one
    apply (Int.ediv_lt_iff_lt_mul divisor).mpr
    linarith

theorem cap_le_of_lt {count : ℕ} (positive : 0 < count)
    (fewer : count < workload.callbacks.length) :
    count * workload.share - workload.share + workload.maxShare ≤ 10000 := by
  have counted : ((count : ℤ) + 1) * workload.share ≤
      workload.callbacks.length * workload.share :=
    mul_le_mul_of_nonneg_right (by omega) workload.share_nonneg
  have shares := workload.length_mul_share_le
  have bounds := workload.maxShare_bounds (by omega)
  linarith

private theorem cap_le_of_nine (many : 9 ≤ workload.callbacks.length) :
    workload.callbacks.length * workload.share - workload.share + workload.maxShare ≤ 10000 := by
  have counted : 9 * workload.share ≤ workload.callbacks.length * workload.share :=
    mul_le_mul_of_nonneg_right (by omega) workload.share_nonneg
  have shares := workload.length_mul_share_le
  have maxShares := workload.length_mul_maxShare_le
  have bounds := workload.maxShare_bounds (by omega)
  rcases bounds.2.eq_or_lt with odd | even
  · rw [odd] at maxShares
    linarith
  · linarith

private theorem lt_cap_of_few (positive : 0 < workload.callbacks.length)
    (few : workload.callbacks.length < 9) :
    10000 < workload.callbacks.length * workload.share - workload.share + workload.maxShare := by
  unfold share maxShare
  generalize workload.callbacks.length = totalWorkers at positive few
  interval_cases totalWorkers <;> decide

private theorem cap_le_iff {count : ℕ} (positive : 0 < count)
    (fewer : count ≤ workload.callbacks.length) :
    count * workload.share - workload.share + workload.maxShare ≤ 10000 ↔
      count < workload.callbacks.length ∨ 9 ≤ workload.callbacks.length := by
  rcases fewer.lt_or_eq with before | last
  · exact iff_of_true (workload.cap_le_of_lt positive before) (Or.inl before)
  · subst last
    rcases Nat.lt_or_ge workload.callbacks.length 9 with few | many
    · have beyond := workload.lt_cap_of_few positive few
      exact iff_of_false (by omega) (by omega)
    · exact iff_of_true (workload.cap_le_of_nine many) (Or.inr many)

/-- The start message, some of the reports and then perhaps the merge callback, none of
them twice. -/
structure InOrder (deliveries : List Delivery) (start : Delivery)
    (reports finishing : List Delivery) : Prop where
  split : deliveries = start :: (reports ++ finishing)
  starts : start.message = .start workload.start
  once : (reports.map Delivery.message).Subperm
    (workload.callbacks.map Message.workerCallback)
  finishes : finishing.map Delivery.message = [] ∨
    finishing.map Delivery.message = [.mergeCallback workload.merge]

section Order

variable {workload} {deliveries reports finishing : List Delivery} {start : Delivery}
  {trackers finish : Trackers}

private theorem InOrder.length_le (order : workload.InOrder deliveries start reports finishing) :
    reports.length ≤ workload.callbacks.length := by
  have bound := order.once.length_le
  rwa [List.length_map, List.length_map] at bound

private theorem InOrder.only_reports (order : workload.InOrder deliveries start reports finishing) :
    workload.Reports reports := by
  intro delivery member
  have listed := order.once.subset (List.mem_map_of_mem member)
  obtain ⟨callback, callbackMember, same⟩ := List.mem_map.mp listed
  exact ⟨callback, callbackMember, same.symm⟩

theorem InOrder.row_of_reports (order : workload.InOrder deliveries start reports finishing)
    (absent : trackers.find? processingId = none)
    (reached : tracker.Runs trackers (start :: reports) finish) :
    ∃ row, finish.find? processingId = some row ∧
      row.progress = reports.length * workload.share ∧
      row.maxProgress =
        if reports = [] then 0 else row.progress - workload.share + workload.maxShare := by
  obtain ⟨created, stepped, reached⟩ := (tracker.runs_cons _ _ _ _).mp reached
  have fresh := (workload.handle_start order.starts absent).2
  rw [(tracker_step _ _ _).mp stepped] at fresh
  obtain ⟨row, found, progress, cap⟩ :=
    workload.reports_progress order.only_reports fresh reached
  refine ⟨row, found, ?_, cap⟩
  rw [progress]
  exact zero_add _

private theorem capped_of_reports {row : Tracker} {count : ℕ} (positive : 0 < count)
    (fewer : count ≤ workload.callbacks.length) (progress : row.progress = count * workload.share)
    (cap : row.maxProgress = row.progress - workload.share + workload.maxShare) :
    Capped row ↔ count < workload.callbacks.length ∨ 9 ≤ workload.callbacks.length := by
  have bounds := workload.maxShare_bounds (by omega)
  have nonneg := workload.share_nonneg
  have above : row.progress ≤ row.maxProgress := by
    rw [cap]
    linarith
  rw [capped_iff, cap, progress, workload.cap_le_iff positive fewer, ← progress, ← cap]
  exact and_iff_right above

private theorem InOrder.capped_iff_of_reports
    (order : workload.InOrder deliveries start reports finishing)
    (positive : 0 < workload.callbacks.length) (absent : trackers.find? processingId = none)
    (reached : tracker.Runs trackers (start :: reports) finish) :
    ∃ row, finish.find? processingId = some row ∧
      (Capped row ↔
        reports.length < workload.callbacks.length ∨ 9 ≤ workload.callbacks.length) := by
  obtain ⟨row, found, progress, cap⟩ := order.row_of_reports absent reached
  refine ⟨row, found, ?_⟩
  by_cases none : reports = []
  · subst none
    rw [if_pos rfl] at cap
    rw [List.length_nil, Nat.cast_zero, zero_mul] at progress
    rw [capped_iff, progress, cap]
    exact iff_of_true (by decide) (Or.inl positive)
  · rw [if_neg none] at cap
    exact capped_of_reports (List.length_pos_of_ne_nil none) order.length_le progress cap

theorem InOrder.capped_of_merge (order : workload.InOrder deliveries start reports finishing)
    (merged : finishing.map Delivery.message = [.mergeCallback workload.merge])
    (absent : trackers.find? processingId = none)
    (reached : tracker.Runs trackers deliveries finish) :
    ∃ row, finish.find? processingId = some row ∧ Capped row := by
  obtain ⟨merge, rfl, merges⟩ := List.map_eq_singleton_iff.mp merged
  rw [order.split, ← List.cons_append] at reached
  obtain ⟨last, toLast, stepped⟩ := (tracker.runs_snoc _ _ _ _).mp reached
  obtain ⟨row, found, _⟩ := order.row_of_reports absent toLast
  have full := (workload.handle_merge last merges).2
  rw [(tracker_step _ _ _).mp stepped, found] at full
  refine ⟨_, full, ?_⟩
  rw [capped_iff]
  exact ⟨le_refl 10000, le_refl 10000⟩

end Order

end Workload

/-- The cap is beyond the full bar exactly after the last report of at most eight workers,
until the merge callback. -/
theorem cap_stays_below_iff {processingId : String} (workload : Workload processingId)
    (positive : 0 < workload.callbacks.length) {trackers finish : Trackers}
    {deliveries reports finishing : List Delivery} {start : Delivery}
    (absent : trackers.find? processingId = none)
    (order : workload.InOrder deliveries start reports finishing)
    (reached : tracker.Runs trackers deliveries finish) :
    (∃ row, finish.find? processingId = some row ∧ Capped row) ↔
      finishing ≠ [] ∨ reports.length < workload.callbacks.length ∨
        9 ≤ workload.callbacks.length := by
  rcases order.finishes with none | merged
  · have unfinished : finishing = [] := List.map_eq_nil_iff.mp none
    have same : deliveries = start :: reports := by
      rw [order.split, unfinished, List.append_nil]
    rw [same] at reached
    obtain ⟨row, found, iff⟩ := order.capped_iff_of_reports positive absent reached
    rw [found]
    simp only [Option.some.injEq, exists_eq_left', unfinished, ne_eq, not_true_eq_false,
      false_or]
    exact iff
  · have finished : finishing ≠ [] := by
      rintro rfl
      cases merged
    exact iff_of_true (order.capped_of_merge merged absent reached) (Or.inl finished)

namespace Sample

def started : Delivery :=
  { message := .start start, now := 0 }

def reported : Delivery :=
  { message := .workerCallback callback, now := nanosOfSecond }

def merged : Delivery :=
  { message := .mergeCallback merge, now := 2 * nanosOfSecond }

private theorem reported_inOrder : workload.InOrder [started, reported] started [reported] [] where
  split := rfl
  starts := rfl
  once := List.Subperm.refl _
  finishes := Or.inl rfl

private theorem merged_inOrder :
    workload.InOrder [started, reported, merged] started [reported] [merged] where
  split := rfl
  starts := rfl
  once := List.Subperm.refl _
  finishes := Or.inr rfl

end Sample

theorem cap_stays_below_iff_finished :
    ∃ finish row, tracker.Runs KeyedTable.empty [Sample.started, Sample.reported, Sample.merged]
      finish ∧ finish.find? "p" = some row ∧ Capped row := by
  obtain ⟨finish, reached⟩ := tracker_runs KeyedTable.empty
    [Sample.started, Sample.reported, Sample.merged]
  obtain ⟨row, found, capped⟩ := (cap_stays_below_iff Sample.workload (by decide) rfl
    Sample.merged_inOrder reached).mpr (Or.inl (by decide))
  exact ⟨finish, row, reached, found, capped⟩

/-- The only worker has reported: the bar may show up to 180 percent, and half a second
later it does. -/
theorem estimate_passes_full_bar :
    Sample.workload.InOrder [Sample.started, Sample.reported] Sample.started
        [Sample.reported] [] ∧
      ∃ finish row, tracker.Runs KeyedTable.empty [Sample.started, Sample.reported] finish ∧
        finish.find? "p" = some row ∧ row.progress = 9000 ∧ row.maxProgress = 18000 ∧
        getProgressPercent row true (nanosOfSecond + 500 * nanosOfMilli) = 180 ∧
        ¬Capped row := by
  have observed : ((tracker.run KeyedTable.empty [Sample.started, Sample.reported]).bind
      (fun finish => finish.find? "p")).map (fun row =>
        (row.progress, row.maxProgress,
          getProgressPercent row true (nanosOfSecond + 500 * nanosOfMilli))) =
      some (9000, 18000, 180) := by
    decide +kernel
  obtain ⟨row, shown, same⟩ := Option.map_eq_some_iff.mp observed
  obtain ⟨finish, reached, found⟩ := Option.bind_eq_some_iff.mp shown
  simp only [Prod.mk.injEq] at same
  obtain ⟨progress, cap, percent⟩ := same
  refine ⟨Sample.reported_inOrder, finish, row, reached, found, progress, cap, percent, ?_⟩
  intro capped
  have below := capped.below
  omega

end EchoProcessing.Tracking
