/-
What becomes of a tracker row when the three queues are read in any order.

Reports before the row exists are lost and reports after the merge callback are added
to a full bar. The increments commute with each other, so a run is known from how many
reports stand before, between and after the start message and the merge callback.
-/

import EchoProcessing.Tracking.Rows
import Mathlib.Tactic.Linarith

namespace EchoProcessing.Tracking

open TrackerRepository (incremented updated)
open TrackerService (newTracker)

universe u v

def OnTenThousand (processingId : String) (trackers : Trackers) : Prop :=
  ∀ row, trackers.find? processingId = some row → 0 ≤ row.progress ∧ row.progress ≤ 10000

private theorem onTenThousand_of_absent {processingId : String} {trackers : Trackers}
    (absent : trackers.find? processingId = none) : OnTenThousand processingId trackers := by
  intro row found
  rw [absent] at found
  cases found

private theorem onTenThousand_of_find? {processingId : String} {trackers : Trackers} {row : Tracker}
    (found : trackers.find? processingId = some row) (nonneg : 0 ≤ row.progress)
    (below : row.progress ≤ 10000) : OnTenThousand processingId trackers := by
  intro other foundOther
  rw [found] at foundOther
  obtain rfl := Option.some.inj foundOther
  exact ⟨nonneg, below⟩

def NotDecreased (processingId : String) (before after : Trackers) : Prop :=
  ∀ row, before.find? processingId = some row →
    ∃ later, after.find? processingId = some later ∧ row.progress ≤ later.progress

private theorem notDecreased_of_absent {processingId : String} {before : Trackers}
    (absent : before.find? processingId = none) (after : Trackers) :
    NotDecreased processingId before after := by
  intro row found
  rw [absent] at found
  cases found

private theorem notDecreased_of_find? {processingId : String} {before after : Trackers}
    {row later : Tracker} (found : before.find? processingId = some row)
    (foundLater : after.find? processingId = some later)
    (grown : row.progress ≤ later.progress) : NotDecreased processingId before after := by
  intro other foundOther
  rw [found] at foundOther
  obtain rfl := Option.some.inj foundOther
  exact ⟨later, foundLater, grown⟩

/-- What the tracker is for: a bar that appears, moves up and ends full. -/
structure Converges (processingId : String) (trackers : Trackers) (deliveries : List Delivery) :
    Prop where
  handled : tracker.EveryStep (fun before delivery => ∃ next, receive before delivery = .ok next)
    trackers deliveries
  finished : ∃ finish, tracker.Runs trackers deliveries finish ∧
    ∃ row, finish.find? processingId = some row ∧ row.progress = 10000 ∧ row.maxProgress = 10000
  bounded : tracker.EveryState (OnTenThousand processingId) trackers deliveries
  neverDecreases : tracker.EveryStep
    (fun before delivery => NotDecreased processingId before (handle before delivery))
    trackers deliveries

def StartsBeforeMerge (deliveries : List Delivery) : Prop :=
  deliveries.Pairwise (fun earlier later =>
    earlier.message.queue = .mergeCallback → later.message.queue ≠ .start)

instance (deliveries : List Delivery) : Decidable (StartsBeforeMerge deliveries) :=
  inferInstanceAs (Decidable (List.Pairwise _ _))

def MergesLast (deliveries : List Delivery) : Prop :=
  deliveries.Pairwise (fun earlier later =>
    earlier.message.queue = .mergeCallback → later.message.queue ≠ .workerCallback)

instance (deliveries : List Delivery) : Decidable (MergesLast deliveries) :=
  inferInstanceAs (Decidable (List.Pairwise _ _))

private theorem exists_split_of_perm {α : Type u} {β : Type v} {column : α → β} {items : List α}
    {head : β} {rest : List β} (perm : (items.map column).Perm (head :: rest)) :
    ∃ before item after, items = before ++ item :: after ∧ column item = head ∧
      ((before ++ after).map column).Perm rest := by
  have member : head ∈ items.map column := perm.symm.subset List.mem_cons_self
  obtain ⟨item, itemMember, same⟩ := List.mem_map.mp member
  obtain ⟨before, after, split⟩ := List.append_of_mem itemMember
  refine ⟨before, item, after, split, same, ?_⟩
  subst split
  rw [List.map_append, List.map_cons, same] at perm
  rw [List.map_append]
  exact (List.perm_middle.symm.trans perm).cons_inv

private theorem pairwise_of_split {α : Type u} {first second : α → Prop} {left right : List α}
    (noFirst : ∀ item ∈ left, ¬first item) (noSecond : ∀ item ∈ right, ¬second item) :
    (left ++ right).Pairwise (fun earlier later => first earlier → ¬second later) := by
  rw [List.pairwise_append]
  refine ⟨?_, ?_, ?_⟩
  · exact List.pairwise_of_forall_mem_list
      (fun earlier member _ _ here => absurd here (noFirst earlier member))
  · exact List.pairwise_of_forall_mem_list (fun _ _ later member _ => noSecond later member)
  · exact fun earlier member _ _ here => absurd here (noFirst earlier member)

namespace Workload

variable {processingId : String} (workload : Workload processingId)

def Reports (deliveries : List Delivery) : Prop :=
  ∀ delivery ∈ deliveries, ∃ callback ∈ workload.callbacks,
    delivery.message = .workerCallback callback

private theorem reports_absent {deliveries : List Delivery} {trackers finish : Trackers}
    (reports : workload.Reports deliveries) (absent : trackers.find? processingId = none)
    (reached : tracker.Runs trackers deliveries finish) :
    finish.find? processingId = none := by
  have preserved : ∀ state delivery next, state.find? processingId = none →
      (∃ callback ∈ workload.callbacks, delivery.message = .workerCallback callback) →
      tracker.step state delivery = some next → next.find? processingId = none := by
    intro state delivery next none report stepped
    rw [← (tracker_step state next delivery).mp stepped, (workload.handle_report state report).2,
      none]
    rfl
  exact reached.invariant_of_everyStep preserved absent
    (tracker.everyStep_of_forall trackers (fun delivery member _ => reports delivery member))

theorem reports_progress {deliveries : List Delivery} {trackers finish : Trackers}
    {row : Tracker} (reports : workload.Reports deliveries)
    (found : trackers.find? processingId = some row)
    (reached : tracker.Runs trackers deliveries finish) :
    ∃ later, finish.find? processingId = some later ∧
      later.progress = row.progress + deliveries.length * workload.share ∧
      later.maxProgress =
        if deliveries = [] then row.maxProgress
        else later.progress - workload.share + workload.maxShare := by
  induction deliveries using List.reverseRecOn generalizing finish with
  | nil =>
      obtain rfl := (tracker.runs_nil _ _).mp reached
      exact ⟨row, found, by simp, by simp⟩
  | append_singleton deliveries delivery ih =>
      obtain ⟨last, toLast, stepped⟩ := (tracker.runs_snoc _ _ _ _).mp reached
      obtain ⟨before, foundBefore, progress, _⟩ :=
        ih (fun other member => reports other (List.mem_append_left _ member)) toLast
      have report := reports delivery (List.mem_append_right _ List.mem_cons_self)
      have foundAfter := (workload.handle_report last report).2
      rw [(tracker_step last finish delivery).mp stepped, foundBefore] at foundAfter
      refine ⟨_, foundAfter, ?_, ?_⟩
      · change before.progress + workload.share = _
        rw [progress, List.length_append, List.length_singleton]
        push_cast
        ring
      · rw [if_neg (by simp)]
        change before.progress + workload.maxShare =
          before.progress + workload.share - workload.share + workload.maxShare
        ring

/-- A delivery that the bar shows correctly. -/
def Sound (processingId : String) (before : Trackers) (delivery : Delivery) : Prop :=
  (∃ next, receive before delivery = .ok next) ∧
    OnTenThousand processingId (handle before delivery) ∧
      NotDecreased processingId before (handle before delivery)

private theorem reports_sound {deliveries : List Delivery} {trackers : Trackers}
    (reports : workload.Reports deliveries)
    (room : ∀ row, trackers.find? processingId = some row →
      0 ≤ row.progress ∧ row.progress + deliveries.length * workload.share ≤ 10000) :
    tracker.EveryStep (Sound processingId) trackers deliveries := by
  intro before delivery after state split reached
  have reportsBefore : workload.Reports before := fun other member =>
    reports other (split ▸ List.mem_append_left _ member)
  have report := reports delivery (split ▸ List.mem_append_right _ List.mem_cons_self)
  obtain ⟨handled, foundAfter⟩ := workload.handle_report state report
  refine ⟨handled, ?_⟩
  cases found : trackers.find? processingId with
  | none =>
      have absent := workload.reports_absent reportsBefore found reached
      rw [absent] at foundAfter
      exact ⟨onTenThousand_of_absent foundAfter, notDecreased_of_absent absent _⟩
  | some row =>
      obtain ⟨current, foundCurrent, progress, _⟩ :=
        workload.reports_progress reportsBefore found reached
      obtain ⟨nonneg, below⟩ := room row found
      have fewer : (before.length : ℤ) + 1 ≤ deliveries.length := by
        rw [split, List.length_append, List.length_cons]
        push_cast
        omega
      have share := workload.share_nonneg
      have sum : ((before.length : ℤ) + 1) * workload.share ≤
          deliveries.length * workload.share := mul_le_mul_of_nonneg_right fewer share
      have part : 0 ≤ (before.length : ℤ) * workload.share :=
        mul_nonneg (Int.natCast_nonneg _) share
      rw [foundCurrent] at foundAfter
      have next : (incremented workload.share workload.maxShare delivery.now current).progress =
          current.progress + workload.share := rfl
      exact ⟨onTenThousand_of_find? foundAfter (by linarith) (by linarith),
        notDecreased_of_find? foundCurrent foundAfter (by linarith)⟩

/-- The start message and the merge callback, in either order, among the reports. -/
structure Splits (deliveries early : List Delivery) (first : Delivery) (middle : List Delivery)
    (second : Delivery) (late : List Delivery) : Prop where
  split : deliveries = early ++ first :: (middle ++ second :: late)
  earlyReports : workload.Reports early
  middleReports : workload.Reports middle
  lateReports : workload.Reports late
  count : early.length + middle.length + late.length = workload.callbacks.length

private theorem splits_of_perm {deliveries early late : List Delivery} {first : Delivery}
    {middle : List Delivery} {second : Delivery}
    (split : deliveries = early ++ first :: (middle ++ second :: late))
    (perm : ((early ++ (middle ++ late)).map Delivery.message).Perm
      (workload.callbacks.map Message.workerCallback)) :
    workload.Splits deliveries early first middle second late := by
  have reports : workload.Reports (early ++ (middle ++ late)) := by
    intro delivery member
    have listed := perm.subset (List.mem_map_of_mem member)
    obtain ⟨callback, callbackMember, same⟩ := List.mem_map.mp listed
    exact ⟨callback, callbackMember, same.symm⟩
  have count := perm.length_eq
  simp only [List.length_map, List.length_append] at count
  exact
    { split := split
      earlyReports := fun delivery member => reports delivery (by simp [member])
      middleReports := fun delivery member => reports delivery (by simp [member])
      lateReports := fun delivery member => reports delivery (by simp [member])
      count := by omega }

private theorem exists_splits {deliveries : List Delivery}
    (once : (deliveries.map Delivery.message).Perm workload.messages) :
    ∃ early first middle second late,
      workload.Splits deliveries early first middle second late ∧
        ((first.message = .start workload.start ∧
            second.message = .mergeCallback workload.merge) ∨
          (first.message = .mergeCallback workload.merge ∧
            second.message = .start workload.start)) := by
  obtain ⟨before, start, after, split, starts, others⟩ := exists_split_of_perm once
  obtain ⟨left, merge, right, around, merges, perm⟩ := exists_split_of_perm others
  -- the merge callback stands after the start message or before it
  rcases List.append_eq_append_iff.mp around with ⟨middle, rfl, rfl⟩ | ⟨rest, rfl, tail⟩
  · refine ⟨before, start, middle, merge, right, ?_, Or.inl ⟨starts, merges⟩⟩
    exact workload.splits_of_perm split (by rwa [← List.append_assoc])
  · cases rest with
    | nil =>
        obtain rfl : merge :: right = after := tail
        refine ⟨left, start, [], merge, right, ?_, Or.inl ⟨starts, merges⟩⟩
        exact workload.splits_of_perm (by simpa using split) (by simpa using perm)
    | cons head middle =>
        obtain ⟨rfl, rfl⟩ := List.cons.inj tail
        refine ⟨left, merge, middle, start, after, ?_, Or.inr ⟨merges, starts⟩⟩
        exact workload.splits_of_perm (by simpa using split) perm

private theorem queue_of_reports {deliveries : List Delivery}
    (reports : workload.Reports deliveries) {delivery : Delivery} (member : delivery ∈ deliveries) :
    delivery.message.queue = .workerCallback := by
  obtain ⟨callback, _, same⟩ := reports delivery member
  rw [same]
  rfl

section Shapes

variable {workload} {trackers : Trackers} {deliveries early middle late : List Delivery}
  {first second : Delivery}

private theorem Splits.row_of_start_first {finish : Trackers}
    (shape : workload.Splits deliveries early first middle second late)
    (start : first.message = .start workload.start)
    (merge : second.message = .mergeCallback workload.merge)
    (absent : trackers.find? processingId = none)
    (reached : tracker.Runs trackers deliveries finish) :
    ∃ row, finish.find? processingId = some row ∧
      row.progress = 10000 + late.length * workload.share ∧
      row.maxProgress =
        if late = [] then 10000 else row.progress - workload.share + workload.maxShare := by
  rw [shape.split, tracker.runs_append] at reached
  obtain ⟨created, toCreated, reached⟩ := reached
  obtain ⟨shown, stepped, reached⟩ := (tracker.runs_cons _ _ _ _).mp reached
  obtain ⟨reported, toReported, reached⟩ := (tracker.runs_append _ _ _ _).mp reached
  obtain ⟨full, filled, reached⟩ := (tracker.runs_cons _ _ _ _).mp reached
  have missing := workload.reports_absent shape.earlyReports absent toCreated
  have fresh := (workload.handle_start start missing).2
  rw [(tracker_step _ _ _).mp stepped] at fresh
  obtain ⟨row, found, _⟩ := workload.reports_progress shape.middleReports fresh toReported
  have merged := (workload.handle_merge reported merge).2
  rw [(tracker_step _ _ _).mp filled, found] at merged
  exact workload.reports_progress shape.lateReports merged reached

private theorem Splits.sound_of_start_first
    (shape : workload.Splits deliveries early first middle second late)
    (start : first.message = .start workload.start)
    (merge : second.message = .mergeCallback workload.merge)
    (absent : trackers.find? processingId = none) (noRest : late.length * workload.share = 0) :
    tracker.EveryStep (Sound processingId) trackers deliveries := by
  rw [shape.split, tracker.everyStep_append]
  constructor
  · apply workload.reports_sound shape.earlyReports
    intro row found
    rw [absent] at found
    cases found
  intro created toCreated
  have missing := workload.reports_absent shape.earlyReports absent toCreated
  obtain ⟨started, fresh⟩ := workload.handle_start start missing
  rw [tracker.everyStep_cons]
  constructor
  · exact ⟨started, onTenThousand_of_find? fresh (le_refl 0) (by change (0 : ℤ) ≤ 10000; decide),
      notDecreased_of_absent missing _⟩
  intro shown stepped
  rw [(tracker_step _ _ _).mp stepped] at fresh
  -- between the two, all the reports together stay under nine tenths of the bar
  have some_reports : (middle.length : ℤ) * workload.share ≤ 9000 := by
    have fewer : (middle.length : ℤ) ≤ workload.callbacks.length := by
      have := shape.count
      omega
    exact (mul_le_mul_of_nonneg_right fewer workload.share_nonneg).trans
      workload.length_mul_share_le
  rw [tracker.everyStep_append]
  constructor
  · apply workload.reports_sound shape.middleReports
    intro row found
    rw [fresh] at found
    obtain rfl := Option.some.inj found
    change 0 ≤ (0 : ℤ) ∧ 0 + middle.length * workload.share ≤ 10000
    constructor <;> linarith
  intro reported toReported
  obtain ⟨row, found, progress, _⟩ :=
    workload.reports_progress shape.middleReports fresh toReported
  obtain ⟨handled, merged⟩ := workload.handle_merge reported merge
  rw [found] at merged
  rw [tracker.everyStep_cons]
  constructor
  · have reportedBelow : row.progress ≤ 10000 := by
      rw [progress]
      change (0 : ℤ) + middle.length * workload.share ≤ 10000
      linarith
    exact ⟨handled,
      onTenThousand_of_find? merged (by change (0 : ℤ) ≤ 10000; decide) (le_refl 10000),
      notDecreased_of_find? found merged reportedBelow⟩
  intro full filled
  rw [(tracker_step _ _ _).mp filled] at merged
  apply workload.reports_sound shape.lateReports
  intro other foundOther
  rw [merged] at foundOther
  obtain rfl := Option.some.inj foundOther
  change (0 : ℤ) ≤ 10000 ∧ 10000 + late.length * workload.share ≤ 10000
  rw [noRest]
  decide

private theorem Splits.row_of_merge_first {finish : Trackers}
    (shape : workload.Splits deliveries early first middle second late)
    (merge : first.message = .mergeCallback workload.merge)
    (start : second.message = .start workload.start)
    (absent : trackers.find? processingId = none)
    (reached : tracker.Runs trackers deliveries finish) :
    ∃ row, finish.find? processingId = some row ∧
      row.progress = late.length * workload.share := by
  rw [shape.split, tracker.runs_append] at reached
  obtain ⟨early, toEarly, reached⟩ := reached
  obtain ⟨lost, stepped, reached⟩ := (tracker.runs_cons _ _ _ _).mp reached
  obtain ⟨created, toCreated, reached⟩ := (tracker.runs_append _ _ _ _).mp reached
  obtain ⟨shown, created_step, reached⟩ := (tracker.runs_cons _ _ _ _).mp reached
  have missing := workload.reports_absent shape.earlyReports absent toEarly
  have still := (workload.handle_merge early merge).2
  rw [(tracker_step _ _ _).mp stepped, missing] at still
  have fresh := (workload.handle_start start
    (workload.reports_absent shape.middleReports still toCreated)).2
  rw [(tracker_step _ _ _).mp created_step] at fresh
  obtain ⟨row, found, progress, _⟩ :=
    workload.reports_progress shape.lateReports fresh reached
  refine ⟨row, found, ?_⟩
  rw [progress]
  exact zero_add _

private theorem Splits.startsBeforeMerge
    (shape : workload.Splits deliveries early first middle second late)
    (start : first.message = .start workload.start)
    (merge : second.message = .mergeCallback workload.merge) :
    StartsBeforeMerge deliveries := by
  have split : deliveries = (early ++ [first]) ++ (middle ++ second :: late) := by
    rw [shape.split]
    simp
  rw [split]
  apply pairwise_of_split
  · intro delivery member
    rcases List.mem_append.mp member with report | last
    · rw [workload.queue_of_reports shape.earlyReports report]
      decide
    · rw [List.mem_singleton.mp last, start]
      exact Queue.noConfusion
  · intro delivery member
    rcases List.mem_append.mp member with report | member
    · rw [workload.queue_of_reports shape.middleReports report]
      decide
    · rcases List.mem_cons.mp member with rfl | report
      · rw [merge]
        exact Queue.noConfusion
      · rw [workload.queue_of_reports shape.lateReports report]
        decide

private theorem Splits.not_startsBeforeMerge
    (shape : workload.Splits deliveries early first middle second late)
    (merge : first.message = .mergeCallback workload.merge)
    (start : second.message = .start workload.start) :
    ¬StartsBeforeMerge deliveries := by
  intro ordered
  rw [StartsBeforeMerge, shape.split, List.pairwise_append, List.pairwise_cons] at ordered
  have forbidden := ordered.2.1.1 second (List.mem_append_right _ List.mem_cons_self)
  exact forbidden (by rw [merge]; rfl) (by rw [start]; rfl)

private theorem Splits.mergesLast_iff
    (shape : workload.Splits deliveries early first middle second late)
    (start : first.message = .start workload.start)
    (merge : second.message = .mergeCallback workload.merge) :
    MergesLast deliveries ↔ late = [] := by
  constructor
  · intro ordered
    rw [MergesLast, shape.split, List.pairwise_append, List.pairwise_cons, List.pairwise_append,
      List.pairwise_cons] at ordered
    have after := ordered.2.1.2.2.1.1
    by_contra nonempty
    obtain ⟨report, member⟩ := List.exists_mem_of_ne_nil late nonempty
    exact after report member (by rw [merge]; rfl)
      (workload.queue_of_reports shape.lateReports member)
  · intro none
    have split : deliveries = (early ++ first :: middle) ++ [second] := by
      rw [shape.split, none]
      simp
    rw [split]
    apply pairwise_of_split
    · intro delivery member
      rcases List.mem_append.mp member with report | member
      · rw [workload.queue_of_reports shape.earlyReports report]
        decide
      · rcases List.mem_cons.mp member with rfl | report
        · rw [start]
          exact Queue.noConfusion
        · rw [workload.queue_of_reports shape.middleReports report]
          decide
    · intro delivery member
      rw [List.mem_singleton.mp member, merge]
      exact Queue.noConfusion

end Shapes

theorem shares_eq_zero_iff (some_report : 0 < workload.callbacks.length) :
    (workload.share = 0 ∧ workload.maxShare = 0) ↔ 18000 < workload.callbacks.length := by
  obtain ⟨none, zero, one⟩ := shares_of_pos (Int.natCast_pos.mpr some_report)
  rw [share, none, maxShare]
  omega

end Workload

section Convergence

variable {processingId : String} {workload : Workload processingId} {trackers : Trackers}
  {deliveries early middle late : List Delivery} {first second : Delivery}

private theorem converges_of_start_first
    (shape : workload.Splits deliveries early first middle second late)
    (start : first.message = .start workload.start)
    (merge : second.message = .mergeCallback workload.merge)
    (absent : trackers.find? processingId = none)
    (harmless : late = [] ∨ (workload.share = 0 ∧ workload.maxShare = 0)) :
    Converges processingId trackers deliveries := by
  have noRest : late.length * workload.share = 0 := by
    rcases harmless with none | ⟨share, _⟩
    · rw [none]
      exact zero_mul _
    · rw [share]
      exact mul_zero _
  have sound := shape.sound_of_start_first start merge absent noRest
  obtain ⟨finish, reached⟩ := tracker_runs trackers deliveries
  obtain ⟨row, found, progress, maxProgress⟩ :=
    shape.row_of_start_first start merge absent reached
  have full : row.progress = 10000 := by rw [progress, noRest, add_zero]
  have cap : row.maxProgress = 10000 := by
    by_cases none : late = []
    · rw [maxProgress, if_pos none]
    · obtain ⟨share, maxShare⟩ := harmless.resolve_left none
      rw [maxProgress, if_neg none, full, share, maxShare]
      rfl
  have kept : ∀ state delivery next, OnTenThousand processingId state →
      Workload.Sound processingId state delivery → tracker.step state delivery = some next →
      OnTenThousand processingId next := by
    intro state delivery next _ here stepped
    rw [← (tracker_step state next delivery).mp stepped]
    exact here.2.1
  exact
    { handled := sound.imp (fun _ _ here => here.1)
      finished := ⟨finish, reached, row, found, full, cap⟩
      bounded := tracker.everyState_of_everyStep kept (onTenThousand_of_absent absent) sound
      neverDecreases := sound.imp (fun _ _ here => here.2.2) }

theorem harmless_of_converges
    (shape : workload.Splits deliveries early first middle second late)
    (start : first.message = .start workload.start)
    (merge : second.message = .mergeCallback workload.merge)
    (absent : trackers.find? processingId = none)
    (converges : Converges processingId trackers deliveries) (someLate : late ≠ []) :
    workload.share = 0 ∧ workload.maxShare = 0 := by
  obtain ⟨finish, reached, row, found, full, cap⟩ := converges.finished
  obtain ⟨other, foundOther, progress, maxProgress⟩ :=
    shape.row_of_start_first start merge absent reached
  obtain rfl : row = other := Option.some.inj (found.symm.trans foundOther)
  rw [if_neg someLate, full, cap] at maxProgress
  have length : (0 : ℤ) < late.length := by
    exact_mod_cast List.length_pos_of_ne_nil someLate
  have nothing : late.length * workload.share = 0 := by linarith
  have share : workload.share = 0 := (mul_eq_zero.mp nothing).resolve_left (by omega)
  exact ⟨share, by linarith⟩

private theorem not_converges_of_merge_first
    (shape : workload.Splits deliveries early first middle second late)
    (merge : first.message = .mergeCallback workload.merge)
    (start : second.message = .start workload.start)
    (absent : trackers.find? processingId = none) :
    ¬Converges processingId trackers deliveries := by
  intro converges
  obtain ⟨finish, reached, row, found, full, _⟩ := converges.finished
  obtain ⟨other, foundOther, progress⟩ := shape.row_of_merge_first merge start absent reached
  obtain rfl : row = other := Option.some.inj (found.symm.trans foundOther)
  have fewer : (late.length : ℤ) ≤ workload.callbacks.length := by
    have := shape.count
    omega
  have part : late.length * workload.share ≤ 9000 :=
    (mul_le_mul_of_nonneg_right fewer workload.share_nonneg).trans workload.length_mul_share_le
  omega

end Convergence

/-- A complete sequence converges exactly when the start message comes before the merge
callback and no report that still counts comes after it. -/
theorem converges_iff {processingId : String} (workload : Workload processingId)
    (trackers : Trackers) (absent : trackers.find? processingId = none)
    (deliveries : List Delivery)
    (once : (deliveries.map Delivery.message).Perm workload.messages) :
    Converges processingId trackers deliveries ↔
      StartsBeforeMerge deliveries ∧
        (18000 < workload.callbacks.length ∨ MergesLast deliveries) := by
  obtain ⟨early, first, middle, second, late, shape, order⟩ := workload.exists_splits once
  rcases order with ⟨start, merge⟩ | ⟨merge, start⟩
  · rw [and_iff_right (shape.startsBeforeMerge start merge), shape.mergesLast_iff start merge]
    constructor
    · intro converges
      by_cases none : late = []
      · exact Or.inr none
      · have some_report : 0 < workload.callbacks.length := by
          have := List.length_pos_of_ne_nil none
          have := shape.count
          omega
        exact Or.inl ((workload.shares_eq_zero_iff some_report).mp
          (harmless_of_converges shape start merge absent converges none))
    · rintro (many | none)
      · exact converges_of_start_first shape start merge absent
          (Or.inr ((workload.shares_eq_zero_iff (by omega)).mpr many))
      · exact converges_of_start_first shape start merge absent (Or.inl none)
  · exact iff_of_false (not_converges_of_merge_first shape merge start absent)
      (fun condition => shape.not_startsBeforeMerge merge start condition.1)

namespace Sample

def mergeOvertakes : List Delivery :=
  deliveries [.start start, .mergeCallback merge, .workerCallback callback]

end Sample

theorem converges_iff_in_order :
    (Converges "p" KeyedTable.empty Sample.inOrder ↔
      StartsBeforeMerge Sample.inOrder ∧
        (18000 < Sample.workload.callbacks.length ∨ MergesLast Sample.inOrder)) ∧
      StartsBeforeMerge Sample.inOrder ∧ MergesLast Sample.inOrder :=
  ⟨converges_iff Sample.workload KeyedTable.empty rfl Sample.inOrder (by decide), by decide,
    by decide⟩

/-- A worker callback that is read after the merge callback overfills the bar. -/
theorem late_callback_overfills :
    (Sample.mergeOvertakes.map Delivery.message).Perm Sample.workload.messages ∧
      (∃ finish, tracker.Runs KeyedTable.empty Sample.mergeOvertakes finish ∧
        (finish.find? "p").map Tracker.progress = some 19000) ∧
      ¬Converges "p" KeyedTable.empty Sample.mergeOvertakes := by
  have observed : (tracker.run KeyedTable.empty Sample.mergeOvertakes).map
      (fun finish => (finish.find? "p").map Tracker.progress) = some (some 19000) := by
    decide +kernel
  obtain ⟨finish, reached, overfull⟩ := Option.map_eq_some_iff.mp observed
  refine ⟨by decide, ⟨finish, reached, overfull⟩, ?_⟩
  intro converges
  obtain ⟨other, reachedOther, row, found, full, _⟩ := converges.finished
  obtain rfl : finish = other := Machine.Runs.unique reached reachedOther
  rw [found, Option.map_some, full] at overfull
  cases overfull

end EchoProcessing.Tracking
