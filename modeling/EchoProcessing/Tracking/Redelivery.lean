/-
What a repeated delivery does to the tracker.

The start message is refused by the unique index, a worker callback is counted again,
and only the merge callback assigns. The condition of the main result is about the
messages delivered before and their order: it says which of them may come again.
-/

import EchoProcessing.Tracking.Rows
import Mathlib.Data.Finset.Card
import Mathlib.Tactic.Linarith

namespace EchoProcessing.Tracking

open TrackerRepository (incremented updated)
open TrackerService (divide newTracker)

def Tracker.bar (row : Tracker) : ℤ × ℤ :=
  (row.progress, row.maxProgress)

/-- The listener returns and the two numbers of every row are as they were. -/
def Tolerated (trackers : Trackers) (delivery : Delivery) : Prop :=
  ∃ next, receive trackers delivery = .ok next ∧
    ∀ processingId, (next.find? processingId).map Tracker.bar =
      (trackers.find? processingId).map Tracker.bar

/-- One of the deliveries handed over this message, and its listener returned. -/
def Processed (deliveries : List Delivery) (message : Message) : Prop :=
  ∃ before delivery after state, deliveries = before ++ delivery :: after ∧
    tracker.Runs KeyedTable.empty before state ∧ delivery.message = message ∧
      ∃ next, receive state delivery = .ok next

/-- Every message of the processing that was processed before is tolerated again. -/
def RedeliveriesTolerated (processingId : String) (deliveries : List Delivery) : Prop :=
  ∀ before delivery after state, deliveries = before ++ delivery :: after →
    tracker.Runs KeyedTable.empty before state →
    delivery.message.processingId = processingId → Processed before delivery.message →
    Tolerated state delivery

def messagesOf (processingId : String) (deliveries : List Delivery) : List Message :=
  (deliveries.map Delivery.message).filter (fun message => message.processingId = processingId)

namespace Workload

variable {processingId : String} (workload : Workload processingId)

/-- Which messages may come again after these. The two quotients of a report are zero for
more than 18000 workers, and zero and one for more than 9000. -/
def Repeatable (earlier : List Message) : Message → Prop
  | .start _ => False
  | .workerCallback _ =>
      .start workload.start ∉ earlier ∨ 18000 < workload.callbacks.length ∨
        (9000 < workload.callbacks.length ∧
          ∃ callback, earlier.getLast? = some (.workerCallback callback))
  | .mergeCallback _ =>
      .start workload.start ∉ earlier ∨
        earlier.getLast? = some (.mergeCallback workload.merge) ∨
        (18000 < workload.callbacks.length ∧
          [.start workload.start, .mergeCallback workload.merge].Sublist earlier)

def RedeliveriesRepeatable (deliveries : List Delivery) : Prop :=
  ∀ before delivery after, deliveries = before ++ delivery :: after →
    delivery.message ∈ messagesOf processingId before →
    workload.Repeatable (messagesOf processingId before) delivery.message

/-- The bar stays in the part of the workers until the merge callback is handled. -/
def BelowMerge (deliveries : List Delivery) : Prop :=
  ∀ before after state, deliveries = before ++ after →
    tracker.Runs KeyedTable.empty before state →
    ¬Processed before (.mergeCallback workload.merge) →
    ∀ row, state.find? processingId = some row → row.progress ≤ 9000

end Workload

theorem settle_some (delivery : Delivery) (row : Tracker) :
    ∃ later, delivery.settle (some row) = some later := by
  obtain ⟨message, now⟩ := delivery
  cases message with
  | start payload => exact ⟨row, rfl⟩
  | workerCallback payload =>
      obtain ⟨processingId, workerId, imageURL, total⟩ := payload
      cases total with
      | none => exact ⟨row, rfl⟩
      | some totalWorkers =>
          by_cases zero : totalWorkers = 0
          · subst zero
            exact ⟨row, rfl⟩
          · refine ⟨incremented (Int.tdiv 9000 totalWorkers) (Int.tdiv (2 * 9000) totalWorkers)
              now row, ?_⟩
            simp only [Delivery.settle, Delivery.effect, divide, if_neg zero]
            rfl
  | mergeCallback payload => exact ⟨_, rfl⟩

theorem handle_keeps_row {trackers : Trackers} {processingId : String}
    (present : trackers.find? processingId ≠ none) (delivery : Delivery) :
    (handle trackers delivery).find? processingId ≠ none := by
  obtain ⟨row, found⟩ := Option.ne_none_iff_exists'.mp present
  rw [find?_handle, found]
  by_cases own : delivery.message.processingId = processingId
  · obtain ⟨later, settled⟩ := settle_some delivery row
    rw [if_pos own, settled]
    exact Option.some_ne_none later
  · rw [if_neg own]
    exact Option.some_ne_none row

private theorem tolerated_iff_handle {processingId : String} {delivery : Delivery}
    (own : delivery.message.processingId = processingId) (trackers : Trackers) :
    Tolerated trackers delivery ↔
      (∃ next, receive trackers delivery = .ok next) ∧
        ((handle trackers delivery).find? processingId).map Tracker.bar =
          (trackers.find? processingId).map Tracker.bar := by
  constructor
  · rintro ⟨next, received, same⟩
    refine ⟨⟨next, received⟩, ?_⟩
    simp only [handle, received]
    exact same processingId
  · rintro ⟨⟨next, received⟩, kept⟩
    have handled : handle trackers delivery = next := by
      simp only [handle, received]
    refine ⟨next, received, ?_⟩
    intro wanted
    rw [← handled]
    by_cases same : delivery.message.processingId = wanted
    · rw [← same, own]
      exact kept
    · rw [find?_handle, if_neg same]

private theorem mem_of_processed {deliveries : List Delivery} {message : Message}
    (processed : Processed deliveries message) : message ∈ deliveries.map Delivery.message := by
  obtain ⟨before, delivery, after, _, rfl, _, rfl, _⟩ := processed
  exact List.mem_map_of_mem (List.mem_append_right _ List.mem_cons_self)

theorem Processed.mono {deliveries : List Delivery} {message : Message}
    (processed : Processed deliveries message) (later : List Delivery) :
    Processed (deliveries ++ later) message := by
  obtain ⟨before, delivery, after, state, rfl, reached, same, received⟩ := processed
  exact ⟨before, delivery, after ++ later, state, by simp, reached, same, received⟩

theorem RedeliveriesTolerated.of_append {processingId : String} {first second : List Delivery}
    (tolerated : RedeliveriesTolerated processingId (first ++ second)) :
    RedeliveriesTolerated processingId first := by
  intro before delivery after state split reached own processed
  apply tolerated before delivery (after ++ second) state _ reached own processed
  rw [split, List.append_assoc, List.cons_append]

private theorem mem_messagesOf (processingId : String) (deliveries : List Delivery)
    (message : Message) :
    message ∈ messagesOf processingId deliveries ↔
      message ∈ deliveries.map Delivery.message ∧ message.processingId = processingId := by
  rw [messagesOf, List.mem_filter, decide_eq_true_iff]

private theorem messagesOf_snoc (processingId : String) (deliveries : List Delivery)
    (delivery : Delivery) :
    messagesOf processingId (deliveries ++ [delivery]) =
      if delivery.message.processingId = processingId then
        messagesOf processingId deliveries ++ [delivery.message]
      else messagesOf processingId deliveries := by
  unfold messagesOf
  by_cases own : delivery.message.processingId = processingId
  · simp [own]
  · simp [own]

private theorem exists_split_of_messagesOf {processingId : String} {deliveries : List Delivery}
    {before after : List Message} {message : Message}
    (split : messagesOf processingId deliveries = before ++ message :: after) :
    ∃ first delivery second, deliveries = first ++ delivery :: second ∧
      delivery.message = message ∧ messagesOf processingId first = before := by
  induction deliveries using List.reverseRecOn generalizing after with
  | nil => simp [messagesOf] at split
  | append_singleton deliveries last ih =>
      rw [messagesOf_snoc] at split
      by_cases own : last.message.processingId = processingId
      · rw [if_pos own] at split
        cases after using List.reverseRecOn with
        | nil =>
            obtain ⟨same, lastMessage⟩ := List.append_inj' split rfl
            exact ⟨deliveries, last, [], rfl, by simpa using lastMessage, same⟩
        | append_singleton after other =>
            rw [← List.cons_append, ← List.append_assoc] at split
            obtain ⟨first, delivery, second, rfl, found⟩ := ih (List.append_inj' split rfl).1
            exact ⟨first, delivery, second ++ [last], by simp, found⟩
      · rw [if_neg own] at split
        obtain ⟨first, delivery, second, rfl, found⟩ := ih split
        exact ⟨first, delivery, second ++ [last], by simp, found⟩

private theorem pair_sublist_snoc (first second last : Message) (messages : List Message) :
    [first, second].Sublist (messages ++ [last]) ↔
      [first, second].Sublist messages ∨ (last = second ∧ first ∈ messages) := by
  rw [← List.reverse_sublist, List.reverse_append]
  simp only [List.reverse_cons, List.reverse_nil, List.nil_append, List.singleton_append,
    List.sublist_cons_iff, List.cons.injEq, ← @List.reverse_sublist _ _ messages]
  constructor
  · rintro (kept | ⟨rest, ⟨rfl, rfl⟩, member⟩)
    · exact Or.inl kept
    · exact Or.inr ⟨rfl, by simpa using member⟩
  · rintro (kept | ⟨rfl, member⟩)
    · exact Or.inl kept
    · exact Or.inr ⟨[first], ⟨rfl, rfl⟩, by simpa using member⟩

namespace Workload

variable {processingId : String} (workload : Workload processingId)

/-! ### The two numbers as a function of the messages -/

/-- The two numbers of the row after one more message. -/
def barAfter (bar : Option (ℤ × ℤ)) : Message → Option (ℤ × ℤ)
  | .start _ => some (bar.getD (0, 0))
  | .workerCallback _ =>
      bar.map (fun old => (old.1 + workload.share, old.1 + workload.maxShare))
  | .mergeCallback _ => bar.map (fun _ => (10000, 10000))

def barOf (messages : List Message) : Option (ℤ × ℤ) :=
  messages.foldl workload.barAfter none

private theorem barOf_snoc (messages : List Message) (message : Message) :
    workload.barOf (messages ++ [message]) =
      workload.barAfter (workload.barOf messages) message := by
  simp only [barOf, List.foldl_append, List.foldl_cons, List.foldl_nil]

private theorem mem_messages_iff (message : Message) :
    message ∈ workload.messages ↔
      message = .start workload.start ∨ message = .mergeCallback workload.merge ∨
        ∃ callback ∈ workload.callbacks, message = .workerCallback callback := by
  simp only [messages, List.mem_cons, List.mem_map, eq_comm]

private theorem processingId_of_mem {message : Message} (member : message ∈ workload.messages) :
    message.processingId = processingId := by
  obtain rfl | rfl | ⟨callback, listed, rfl⟩ := (workload.mem_messages_iff message).mp member
  · exact workload.startOf
  · exact workload.mergeOf
  · exact workload.callbacksOf callback listed

private theorem bar_handle (trackers : Trackers) {delivery : Delivery}
    (member : delivery.message ∈ workload.messages) :
    ((handle trackers delivery).find? processingId).map Tracker.bar =
      workload.barAfter ((trackers.find? processingId).map Tracker.bar) delivery.message := by
  obtain start | merge | report := (workload.mem_messages_iff delivery.message).mp member
  · rw [start]
    cases here : trackers.find? processingId with
    | none =>
        rw [(workload.handle_start start here).2]
        rfl
    | some row =>
        obtain ⟨message, now⟩ := delivery
        cases start
        have own : (Message.start workload.start).processingId = processingId :=
          workload.startOf
        rw [find?_handle, if_pos own, here]
        rfl
  · rw [(workload.handle_merge trackers merge).2, merge]
    cases trackers.find? processingId <;> rfl
  · rw [(workload.handle_report trackers report).2]
    obtain ⟨callback, _, same⟩ := report
    rw [same]
    cases trackers.find? processingId <;> rfl

/-- The deliveries of the processing hand over its own messages. -/
def Own (deliveries : List Delivery) : Prop :=
  ∀ delivery ∈ deliveries, delivery.message.processingId = processingId →
    delivery.message ∈ workload.messages

variable {workload}

theorem Own.of_append {first second : List Delivery} (own : workload.Own (first ++ second)) :
    workload.Own first :=
  fun delivery member => own delivery (List.mem_append_left _ member)

theorem Own.messages {deliveries : List Delivery} (own : workload.Own deliveries) :
    ∀ message ∈ messagesOf processingId deliveries, message ∈ workload.messages := by
  intro message member
  obtain ⟨listed, mine⟩ := (mem_messagesOf processingId deliveries message).mp member
  obtain ⟨delivery, here, rfl⟩ := List.mem_map.mp listed
  exact own delivery here mine

private theorem Own.bar_of_runs {deliveries : List Delivery} {finish : Trackers}
    (own : workload.Own deliveries) (reached : tracker.Runs KeyedTable.empty deliveries finish) :
    (finish.find? processingId).map Tracker.bar =
      workload.barOf (messagesOf processingId deliveries) := by
  induction deliveries using List.reverseRecOn generalizing finish with
  | nil =>
      obtain rfl := (tracker.runs_nil _ _).mp reached
      rfl
  | append_singleton deliveries delivery ih =>
      obtain ⟨last, toLast, stepped⟩ := (tracker.runs_snoc _ _ _ _).mp reached
      have before := ih own.of_append toLast
      rw [tracker_step] at stepped
      subst stepped
      rw [messagesOf_snoc]
      by_cases mine : delivery.message.processingId = processingId
      · have member := own delivery (List.mem_append_right _ List.mem_cons_self) mine
        rw [if_pos mine, barOf_snoc, workload.bar_handle last member, before]
      · rw [if_neg mine, find?_handle, if_neg mine, before]

variable (workload)

private theorem barOf_eq_none_iff {earlier : List Message}
    (listed : ∀ message ∈ earlier, message ∈ workload.messages) :
    workload.barOf earlier = none ↔ .start workload.start ∉ earlier := by
  induction earlier using List.reverseRecOn with
  | nil => simp [barOf]
  | append_singleton earlier last ih =>
      have before := ih (List.forall_mem_append.mp listed).1
      have member := listed last (List.mem_append_right _ List.mem_cons_self)
      rw [barOf_snoc]
      obtain rfl | rfl | ⟨callback, _, rfl⟩ := (workload.mem_messages_iff last).mp member
      · simp [barAfter]
      · simp [barAfter, before]
      · simp [barAfter, before]

private theorem processed_of_mem {deliveries : List Delivery} (own : workload.Own deliveries)
    {message : Message} (member : message ∈ messagesOf processingId deliveries) :
    Processed deliveries message := by
  have listed := own.messages message member
  obtain ⟨before, after, split, first⟩ := List.eq_append_cons_of_mem member
  obtain ⟨earlier, delivery, later, rfl, same, toBefore⟩ := exists_split_of_messagesOf split
  obtain ⟨state, reached⟩ := tracker_runs KeyedTable.empty earlier
  refine ⟨earlier, delivery, later, state, rfl, reached, same, ?_⟩
  obtain start | merge | ⟨callback, callbackMember, report⟩ :=
    (workload.mem_messages_iff message).mp listed
  · subst start
    have bar := own.of_append.bar_of_runs reached
    rw [toBefore, (workload.barOf_eq_none_iff (fun other here =>
      own.messages other (split ▸ List.mem_append_left _ here))).mpr first] at bar
    exact (workload.handle_start same (Option.map_eq_none_iff.mp bar)).1
  · exact (workload.handle_merge state (same.trans merge)).1
  · exact (workload.handle_report state ⟨callback, callbackMember, same.trans report⟩).1

/-! ### Which messages leave the two numbers alone -/

/-- A start message is never followed by another one. -/
def StartedOnce (earlier : List Message) : Prop :=
  ∀ before after, earlier = before ++ .start workload.start :: after →
    .start workload.start ∉ before

variable {workload}

theorem StartedOnce.of_append {first second : List Message}
    (once : workload.StartedOnce (first ++ second)) : workload.StartedOnce first := by
  intro before after split
  apply once before (after ++ second)
  rw [split, List.append_assoc, List.cons_append]

variable (workload)

private theorem barOf_snoc_cases {earlier : List Message} {last : Message} {bar : ℤ × ℤ}
    (listed : ∀ message ∈ earlier ++ [last], message ∈ workload.messages)
    (once : workload.StartedOnce (earlier ++ [last]))
    (shown : workload.barOf (earlier ++ [last]) = some bar) :
    (last = .start workload.start ∧ .start workload.start ∉ earlier ∧ bar = (0, 0)) ∨
      (last = .mergeCallback workload.merge ∧ .start workload.start ∈ earlier ∧
        bar = (10000, 10000)) ∨
      ∃ callback ∈ workload.callbacks, last = .workerCallback callback ∧
        ∃ old, workload.barOf earlier = some old ∧
          bar = (old.1 + workload.share, old.1 + workload.maxShare) := by
  have before := workload.barOf_eq_none_iff (List.forall_mem_append.mp listed).1
  have member := listed last (List.mem_append_right _ List.mem_cons_self)
  rw [barOf_snoc] at shown
  obtain rfl | rfl | ⟨callback, callbackMember, rfl⟩ := (workload.mem_messages_iff last).mp member
  · have first := once earlier [] rfl
    rw [before.mpr first] at shown
    exact Or.inl ⟨rfl, first, (Option.some.inj shown).symm⟩
  · obtain ⟨old, here, rfl⟩ := Option.map_eq_some_iff.mp shown
    have started := mt before.mpr (by rw [here]; exact Option.some_ne_none old)
    exact Or.inr (Or.inl ⟨rfl, not_not.mp started, rfl⟩)
  · obtain ⟨old, here, rfl⟩ := Option.map_eq_some_iff.mp shown
    exact Or.inr (Or.inr ⟨callback, callbackMember, rfl, old, here, rfl⟩)

private theorem shares_cases {callback : EchoWorkerCallbackMessage}
    (member : callback ∈ workload.callbacks) :
    (workload.callbacks.length ≤ 9000 ∧ workload.share ≠ 0 ∧ workload.share ≠ workload.maxShare) ∨
      (9000 < workload.callbacks.length ∧ workload.callbacks.length ≤ 18000 ∧
        workload.share = 0 ∧ workload.maxShare = 1) ∨
      (18000 < workload.callbacks.length ∧ workload.share = 0 ∧ workload.maxShare = 0) := by
  have positive : (0 : ℤ) < workload.callbacks.length := by
    exact_mod_cast List.length_pos_of_mem member
  have apart : workload.share = workload.maxShare → 9000 < (workload.callbacks.length : ℤ) := by
    unfold share maxShare
    rw [Int.tdiv_eq_ediv_of_nonneg (by decide), Int.tdiv_eq_ediv_of_nonneg (by decide)]
    intro same
    have lower := Int.mul_ediv_self_le (x := 9000) positive.ne'
    have upper := Int.lt_mul_ediv_self_add (x := 2 * 9000) positive
    rw [← same] at upper
    omega
  obtain ⟨none, zero, one⟩ := shares_of_pos positive
  change workload.share = 0 ↔ _ at none
  change _ → workload.maxShare = 0 at zero
  change _ → _ → workload.maxShare = 1 at one
  omega

private theorem level_of_many {earlier : List Message} {bar : ℤ × ℤ}
    (listed : ∀ message ∈ earlier, message ∈ workload.messages)
    (once : workload.StartedOnce earlier)
    (many : 18000 < workload.callbacks.length)
    (shown : workload.barOf earlier = some bar) : bar.1 = bar.2 := by
  induction earlier using List.reverseRecOn generalizing bar with
  | nil => cases shown
  | append_singleton earlier last ih =>
      obtain ⟨_, _, rfl⟩ | ⟨_, _, rfl⟩ | ⟨callback, member, _, old, _, rfl⟩ :=
        workload.barOf_snoc_cases listed once shown
      · rfl
      · rfl
      · have shares := workload.shares_cases member
        simp only
        omega

private theorem finished_iff_of_many {earlier : List Message}
    (listed : ∀ message ∈ earlier, message ∈ workload.messages)
    (once : workload.StartedOnce earlier)
    (many : 18000 < workload.callbacks.length) :
    workload.barOf earlier = some (10000, 10000) ↔
      [.start workload.start, .mergeCallback workload.merge].Sublist earlier := by
  induction earlier using List.reverseRecOn with
  | nil => simp [barOf]
  | append_singleton earlier last ih =>
      have before := ih (List.forall_mem_append.mp listed).1 once.of_append
      have member := listed last (List.mem_append_right _ List.mem_cons_self)
      have started := workload.barOf_eq_none_iff (List.forall_mem_append.mp listed).1
      rw [pair_sublist_snoc, barOf_snoc, ← before]
      obtain rfl | rfl | ⟨callback, callbackMember, rfl⟩ :=
        (workload.mem_messages_iff last).mp member
      · have first := once earlier [] rfl
        rw [started.mpr first]
        simp [barAfter]
      · by_cases here : .start workload.start ∈ earlier
        · obtain ⟨old, shown⟩ := Option.ne_none_iff_exists'.mp (mt started.mp (not_not.mpr here))
          simp [barAfter, shown, here]
        · simp [barAfter, started.mpr here, here]
      · have level : ∀ {bar}, workload.barOf earlier = some bar → bar.1 = bar.2 :=
          workload.level_of_many (List.forall_mem_append.mp listed).1 once.of_append many
        obtain ⟨_, none, zero⟩ := (workload.shares_cases callbackMember).resolve_left
          (by omega) |>.resolve_left (by omega)
        cases shown : workload.barOf earlier with
        | none => simp [barAfter]
        | some old =>
            have same := level shown
            simp [barAfter, none, zero, Prod.ext_iff, same]

private theorem unchanged_by_report_iff {earlier : List Message}
    {callback : EchoWorkerCallbackMessage} (member : callback ∈ workload.callbacks)
    (listed : ∀ message ∈ earlier, message ∈ workload.messages)
    (once : workload.StartedOnce earlier) :
    workload.barAfter (workload.barOf earlier) (.workerCallback callback) =
        workload.barOf earlier ↔
      workload.Repeatable earlier (.workerCallback callback) := by
  unfold Repeatable
  rw [← workload.barOf_eq_none_iff listed]
  cases earlier using List.reverseRecOn with
  | nil => simp [barOf, barAfter]
  | append_singleton earlier last =>
      cases shown : workload.barOf (earlier ++ [last]) with
      | none => simp [barAfter]
      | some bar =>
          have shares := workload.shares_cases member
          have level := fun many => workload.level_of_many listed once many shown
          simp only [barAfter, Option.map_some, Option.some.injEq, Prod.ext_iff, reduceCtorEq,
            false_or, List.getLast?_concat]
          obtain ⟨rfl, _, rfl⟩ | ⟨rfl, _, rfl⟩ | ⟨other, _, rfl, old, _, rfl⟩ :=
            workload.barOf_snoc_cases listed once shown
          · simp only [reduceCtorEq, exists_false, and_false, or_false]
            omega
          · simp only [reduceCtorEq, exists_false, and_false, or_false]
            omega
          · simp only [Message.workerCallback.injEq, exists_eq', and_true]
            simp only at level
            omega

private theorem unchanged_by_merge_iff {earlier : List Message}
    (listed : ∀ message ∈ earlier, message ∈ workload.messages)
    (once : workload.StartedOnce earlier) :
    workload.barAfter (workload.barOf earlier) (.mergeCallback workload.merge) =
        workload.barOf earlier ↔
      workload.Repeatable earlier (.mergeCallback workload.merge) := by
  unfold Repeatable
  rw [← workload.barOf_eq_none_iff listed]
  cases earlier using List.reverseRecOn with
  | nil => simp [barOf, barAfter]
  | append_singleton earlier last =>
      have finished := fun many => workload.finished_iff_of_many listed once many
      cases shown : workload.barOf (earlier ++ [last]) with
      | none => simp [barAfter]
      | some bar =>
          rw [shown] at finished
          simp only [barAfter, Option.map_some, Option.some.injEq, reduceCtorEq, false_or,
            List.getLast?_concat] at finished ⊢
          rw [eq_comm]
          obtain ⟨rfl, _, rfl⟩ | ⟨rfl, _, rfl⟩ | ⟨callback, member, rfl, old, _, rfl⟩ :=
            workload.barOf_snoc_cases listed once shown
          · simp only [Prod.mk.injEq, reduceCtorEq, false_or] at finished ⊢
            constructor
            · omega
            · exact fun both => (finished both.1).mpr both.2
          · simp
          · simp only [reduceCtorEq, false_or]
            rw [← and_congr_right finished]
            have shares := workload.shares_cases member
            simp only [Prod.mk.injEq]
            omega

private theorem start_not_tolerated (trackers : Trackers) {delivery : Delivery}
    (start : delivery.message = .start workload.start) : ¬Tolerated trackers delivery := by
  obtain ⟨message, now⟩ := delivery
  cases start
  have own : (Message.start workload.start).processingId = processingId := workload.startOf
  rw [tolerated_iff_handle own, receive_eq_ok_iff]
  rintro ⟨⟨row, effect⟩, kept⟩
  rw [own] at effect
  cases here : trackers.find? processingId with
  | none =>
      rw [(workload.handle_start rfl here).2, here] at kept
      cases kept
  | some old =>
      rw [here] at effect
      cases effect

private theorem tolerated_iff_repeatable {before : List Delivery} {state : Trackers}
    {delivery : Delivery} (own : workload.Own before)
    (once : workload.StartedOnce (messagesOf processingId before))
    (reached : tracker.Runs KeyedTable.empty before state)
    (member : delivery.message ∈ workload.messages) :
    Tolerated state delivery ↔
      workload.Repeatable (messagesOf processingId before) delivery.message := by
  have same := tolerated_iff_handle (workload.processingId_of_mem member) state
  rw [workload.bar_handle state member, own.bar_of_runs reached] at same
  obtain start | merge | ⟨callback, callbackMember, report⟩ :=
    (workload.mem_messages_iff delivery.message).mp member
  · rw [start]
    exact iff_of_false (workload.start_not_tolerated state start) id
  · rw [same, merge, and_iff_right (workload.handle_merge state merge).1]
    exact workload.unchanged_by_merge_iff own.messages once
  · rw [same, report,
      and_iff_right (workload.handle_report state ⟨callback, callbackMember, report⟩).1]
    exact workload.unchanged_by_report_iff callbackMember own.messages once

/-- The workers that have reported, each counted once. -/
def reported (deliveries : List Delivery) : Finset EchoWorkerCallbackMessage :=
  workload.callbacks.toFinset.filter
    (fun callback => Message.workerCallback callback ∈ deliveries.map Delivery.message)

private theorem card_reported_le (deliveries : List Delivery) :
    (workload.reported deliveries).card ≤ workload.callbacks.length :=
  (Finset.card_filter_le _ _).trans (List.toFinset_card_le _)

private theorem reported_subset (deliveries later : List Delivery) :
    workload.reported deliveries ⊆ workload.reported (deliveries ++ later) := by
  intro callback member
  rw [reported, Finset.mem_filter] at member ⊢
  refine ⟨member.1, ?_⟩
  rw [List.map_append]
  exact List.mem_append_left _ member.2

private theorem card_reported_lt {deliveries : List Delivery} {delivery : Delivery}
    {callback : EchoWorkerCallbackMessage} (member : callback ∈ workload.callbacks)
    (same : delivery.message = .workerCallback callback)
    (first : Message.workerCallback callback ∉ deliveries.map Delivery.message) :
    (workload.reported deliveries).card < (workload.reported (deliveries ++ [delivery])).card := by
  apply Finset.card_lt_card
  rw [Finset.ssubset_iff_of_subset (workload.reported_subset deliveries [delivery])]
  refine ⟨callback, ?_, ?_⟩
  · rw [reported, Finset.mem_filter, List.mem_toFinset]
    exact ⟨member, by simp [same]⟩
  · rw [reported, Finset.mem_filter]
    exact fun both => first both.2

private theorem progress_of_start {trackers : Trackers} {delivery : Delivery} {row : Tracker}
    (start : delivery.message = .start workload.start)
    (found : (handle trackers delivery).find? processingId = some row) :
    row.progress = 0 ∨ trackers.find? processingId = some row := by
  obtain ⟨message, now⟩ := delivery
  cases start
  have own : (Message.start workload.start).processingId = processingId := workload.startOf
  rw [find?_handle, if_pos own] at found
  cases here : trackers.find? processingId with
  | none =>
      rw [here] at found
      obtain rfl := Option.some.inj found
      exact Or.inl rfl
  | some old =>
      rw [here] at found
      exact Or.inr found

private theorem progress_of_report {trackers : Trackers} {delivery : Delivery} {row : Tracker}
    (report : ∃ callback ∈ workload.callbacks, delivery.message = .workerCallback callback)
    (found : (handle trackers delivery).find? processingId = some row) :
    ∃ old, trackers.find? processingId = some old ∧
      row.progress = old.progress + workload.share := by
  rw [(workload.handle_report trackers report).2] at found
  obtain ⟨old, foundOld, rfl⟩ := Option.map_eq_some_iff.mp found
  exact ⟨old, foundOld, rfl⟩

private theorem share_eq_zero_of_tolerated {trackers : Trackers} {delivery : Delivery}
    {row : Tracker} {callback : EchoWorkerCallbackMessage} (member : callback ∈ workload.callbacks)
    (same : delivery.message = .workerCallback callback)
    (found : trackers.find? processingId = some row) (tolerated : Tolerated trackers delivery) :
    workload.share = 0 := by
  have listed : delivery.message ∈ workload.messages :=
    (workload.mem_messages_iff _).mpr (Or.inr (Or.inr ⟨callback, member, same⟩))
  have kept := ((tolerated_iff_handle (workload.processingId_of_mem listed) trackers).mp
    tolerated).2
  rw [workload.bar_handle trackers listed, found, same] at kept
  simp only [barAfter, Option.map_some, Option.some.injEq, Tracker.bar, Prod.mk.injEq] at kept
  omega

private theorem progress_le_reported {deliveries : List Delivery} {finish : Trackers}
    {row : Tracker} (own : workload.Own deliveries)
    (tolerated : RedeliveriesTolerated processingId deliveries)
    (reached : tracker.Runs KeyedTable.empty deliveries finish)
    (unmerged : ¬Processed deliveries (.mergeCallback workload.merge))
    (found : finish.find? processingId = some row) :
    row.progress ≤ (workload.reported deliveries).card * workload.share := by
  induction deliveries using List.reverseRecOn generalizing finish row with
  | nil =>
      obtain rfl := (tracker.runs_nil _ _).mp reached
      cases found
  | append_singleton deliveries delivery ih =>
      obtain ⟨last, toLast, stepped⟩ := (tracker.runs_snoc _ _ _ _).mp reached
      rw [tracker_step] at stepped
      have before : ∀ {current}, last.find? processingId = some current →
          current.progress ≤ (workload.reported deliveries).card * workload.share := fun here =>
        ih own.of_append tolerated.of_append
          toLast (fun processed => unmerged (processed.mono _)) here
      have grown : ((workload.reported deliveries).card : ℤ) ≤
          (workload.reported (deliveries ++ [delivery])).card := by
        exact_mod_cast Finset.card_le_card (workload.reported_subset deliveries [delivery])
      have kept := mul_le_mul_of_nonneg_right grown workload.share_nonneg
      subst stepped
      by_cases mine : delivery.message.processingId = processingId
      · have member := own delivery (List.mem_append_right _ List.mem_cons_self) mine
        rcases List.mem_cons.mp member with start | member
        · rcases workload.progress_of_start start found with zero | same
          · rw [zero]
            exact mul_nonneg (Int.natCast_nonneg _) workload.share_nonneg
          · exact (before same).trans kept
        rcases List.mem_cons.mp member with merge | member
        · exact absurd ⟨deliveries, delivery, [], last, rfl, toLast, merge,
            (workload.handle_merge last merge).1⟩ unmerged
        obtain ⟨callback, callbackMember, same⟩ := List.mem_map.mp member
        obtain ⟨old, foundOld, progress⟩ :=
          workload.progress_of_report ⟨callback, callbackMember, same.symm⟩ found
        have oldBound := before foundOld
        by_cases listed : Message.workerCallback callback ∈ deliveries.map Delivery.message
        · rw [same] at listed
          have processed := workload.processed_of_mem own.of_append
            ((mem_messagesOf _ _ _).mpr ⟨listed, mine⟩)
          have none := workload.share_eq_zero_of_tolerated callbackMember same.symm foundOld
            (tolerated deliveries delivery [] last rfl toLast mine processed)
          linarith
        · have more : ((workload.reported deliveries).card : ℤ) + 1 ≤
              (workload.reported (deliveries ++ [delivery])).card := by
            exact_mod_cast workload.card_reported_lt callbackMember same.symm listed
          have sum := mul_le_mul_of_nonneg_right more workload.share_nonneg
          linarith
      · rw [find?_handle, if_neg mine] at found
        exact (before found).trans kept

private theorem belowMerge_of_tolerated {deliveries : List Delivery} (own : workload.Own deliveries)
    (tolerated : RedeliveriesTolerated processingId deliveries) :
    workload.BelowMerge deliveries := by
  rintro before after state rfl reached unmerged row found
  have counted := workload.progress_le_reported own.of_append tolerated.of_append reached
    unmerged found
  have workers : ((workload.reported before).card : ℤ) ≤ workload.callbacks.length := by
    exact_mod_cast workload.card_reported_le before
  calc row.progress ≤ (workload.reported before).card * workload.share := counted
    _ ≤ workload.callbacks.length * workload.share :=
        mul_le_mul_of_nonneg_right workers workload.share_nonneg
    _ ≤ 9000 := workload.length_mul_share_le

private theorem startedOnce_of_split {deliveries : List Delivery}
    (fresh : ∀ before delivery after, deliveries = before ++ delivery :: after →
      delivery.message = .start workload.start →
      .start workload.start ∉ messagesOf processingId before) :
    workload.StartedOnce (messagesOf processingId deliveries) := by
  intro before after split
  obtain ⟨first, delivery, second, rfl, same, toFirst⟩ := exists_split_of_messagesOf split
  rw [← toFirst]
  exact fresh first delivery second rfl same

private theorem startedOnce_of_tolerated {deliveries : List Delivery}
    (own : workload.Own deliveries) (tolerated : RedeliveriesTolerated processingId deliveries) :
    workload.StartedOnce (messagesOf processingId deliveries) := by
  apply workload.startedOnce_of_split
  rintro before delivery after rfl start again
  obtain ⟨state, reached⟩ := tracker_runs KeyedTable.empty before
  have processed := workload.processed_of_mem own.of_append again
  rw [← start] at processed
  have mine : delivery.message.processingId = processingId := by
    rw [start]
    exact workload.startOf
  exact workload.start_not_tolerated state start
    (tolerated before delivery after state rfl reached mine processed)

variable {workload} in
theorem RedeliveriesRepeatable.of_append {first second : List Delivery}
    (repeatable : workload.RedeliveriesRepeatable (first ++ second)) :
    workload.RedeliveriesRepeatable first := by
  intro before delivery after split
  apply repeatable before delivery (after ++ second)
  rw [split, List.append_assoc, List.cons_append]

private theorem startedOnce_of_repeatable {deliveries : List Delivery}
    (repeatable : workload.RedeliveriesRepeatable deliveries) :
    workload.StartedOnce (messagesOf processingId deliveries) := by
  apply workload.startedOnce_of_split
  intro before delivery after split start again
  rw [← start] at again
  have allowed := repeatable before delivery after split again
  rw [start] at allowed
  exact allowed

private theorem redeliveriesTolerated_iff {deliveries : List Delivery}
    (own : workload.Own deliveries) :
    RedeliveriesTolerated processingId deliveries ↔
      workload.RedeliveriesRepeatable deliveries := by
  constructor
  · intro tolerated before delivery after split again
    obtain ⟨state, reached⟩ := tracker_runs KeyedTable.empty before
    have mine := ((mem_messagesOf _ _ _).mp again).2
    subst split
    exact (workload.tolerated_iff_repeatable own.of_append
      (workload.startedOnce_of_tolerated own.of_append tolerated.of_append) reached
      (own.of_append.messages _ again)).mp
      (tolerated before delivery after state rfl reached mine
        (workload.processed_of_mem own.of_append again))
  · intro repeatable before delivery after state split reached mine processed
    have again := (mem_messagesOf _ _ _).mpr ⟨mem_of_processed processed, mine⟩
    subst split
    exact (workload.tolerated_iff_repeatable own.of_append
      (workload.startedOnce_of_repeatable repeatable.of_append) reached
      (own.of_append.messages _ again)).mpr (repeatable before delivery after rfl again)

end Workload

/-- A run tolerates the repeated messages of a processing exactly when each of them may
come after those before it, and then the bar stays at nine tenths until the merge
callback. -/
theorem redeliveries_tolerated_iff {processingId : String} (workload : Workload processingId)
    (deliveries : List Delivery) (own : workload.Own deliveries) :
    (RedeliveriesTolerated processingId deliveries ∧ workload.BelowMerge deliveries) ↔
      workload.RedeliveriesRepeatable deliveries := by
  rw [← workload.redeliveriesTolerated_iff own]
  constructor
  · exact fun both => both.1
  · exact fun tolerated => ⟨tolerated, workload.belowMerge_of_tolerated own tolerated⟩

/-! ### Fixed runs -/

namespace Sample

def repeated : List Delivery :=
  deliveries [.workerCallback callback, .workerCallback callback, .start start,
    .mergeCallback merge, .mergeCallback merge]

private theorem repeated_repeatable : workload.RedeliveriesRepeatable repeated := by
  intro before delivery after split again
  have cut : before = repeated.take before.length := by simp [split]
  have here : repeated[before.length]? = some delivery := by simp [split]
  have short : before.length < 5 := by
    have total := congrArg List.length split
    simp only [List.length_append, List.length_cons] at total
    change 5 = _ at total
    omega
  generalize before.length = index at cut here short
  subst cut
  match index, short, here with
  | 0, _, rfl => cases again
  | 1, _, rfl => exact Or.inl (by decide)
  | 2, _, rfl => exact absurd again (by decide)
  | 3, _, rfl => exact absurd again (by decide)
  | 4, _, rfl => exact Or.inr (Or.inl rfl)

def reportedTwice : List Delivery :=
  deliveries [.start start, .workerCallback callback, .workerCallback callback]

end Sample

theorem redeliveries_tolerated_iff_repeated :
    RedeliveriesTolerated "p" Sample.repeated ∧ Sample.workload.BelowMerge Sample.repeated :=
  (redeliveries_tolerated_iff Sample.workload Sample.repeated (by unfold Workload.Own; decide)).mpr
    Sample.repeated_repeatable

/-- The only worker reports, its report is delivered again, and the bar passes nine
tenths and even the full bar before any merge. -/
theorem report_counted_twice :
    (∀ delivery ∈ Sample.reportedTwice, delivery.message ∈ Sample.workload.messages) ∧
      (∃ finish, tracker.Runs KeyedTable.empty Sample.reportedTwice finish ∧
        (finish.find? "p").map Tracker.progress = some 18000) ∧
      ¬RedeliveriesTolerated "p" Sample.reportedTwice ∧
      ¬Sample.workload.BelowMerge Sample.reportedTwice := by
  have listed : ∀ delivery ∈ Sample.reportedTwice,
      delivery.message ∈ Sample.workload.messages := by decide
  have observed : (tracker.run KeyedTable.empty Sample.reportedTwice).map
      (fun finish => (finish.find? "p").map Tracker.progress) = some (some 18000) := by
    decide +kernel
  obtain ⟨finish, reached, overfull⟩ := Option.map_eq_some_iff.mp observed
  have passed : ¬Sample.workload.BelowMerge Sample.reportedTwice := by
    intro below
    obtain ⟨row, found, progress⟩ := Option.map_eq_some_iff.mp overfull
    have bounded := below Sample.reportedTwice [] finish (by simp) reached
      (fun processed => absurd (mem_of_processed processed) (by decide)) row found
    omega
  refine ⟨listed, ⟨finish, reached, overfull⟩, ?_, passed⟩
  intro tolerated
  exact passed (Sample.workload.belowMerge_of_tolerated (fun delivery member _ =>
    listed delivery member) tolerated)

end EchoProcessing.Tracking
