/-
The tracker seen from one processing.

A delivery acts on the row of its own processing and on no other, and what it does
there depends on that row alone. The statements about orders and about repeated
deliveries only use this view.
-/

import EchoProcessing.Tracking.Service

namespace EchoProcessing.Tracking

open TrackerRepository (incremented updated)
open TrackerService (divide newTracker)

/-- The effect of a delivery on the row of its processing, `none` being no row. -/
def Delivery.effect (delivery : Delivery) (row : Option Tracker) :
    Except Failure (Option Tracker) :=
  match delivery.message with
  | .start payload =>
      match row with
      | none => .ok (some (newTracker payload.processingId delivery.now))
      | some _ => .error .dataIntegrityViolation
  | .workerCallback payload =>
      match payload.trackerTotalWorkers with
      | none => .error .nullPointer
      | some totalWorkers => do
          let deltaProgress ← divide 9000 totalWorkers
          let deltaMaxProgress ← divide (2 * 9000) totalWorkers
          return row.map (incremented deltaProgress deltaMaxProgress delivery.now)
  | .mergeCallback _ => .ok (row.map (updated 10000 delivery.now 10000 0))

/-- The row after the delivery, whether its listener returned or threw. -/
def Delivery.settle (delivery : Delivery) (row : Option Tracker) : Option Tracker :=
  match delivery.effect row with
  | .ok next => next
  | .error _ => row

theorem settle_cases {delivery : Delivery} {before : Option Tracker} {row : Tracker}
    (settled : delivery.settle before = some row) :
    before = some row ∨
      (∃ payload, delivery.message = .start payload ∧
        row = newTracker payload.processingId delivery.now) ∨
      (∃ payload totalWorkers old, delivery.message = .workerCallback payload ∧
        payload.trackerTotalWorkers = some totalWorkers ∧ totalWorkers ≠ 0 ∧ before = some old ∧
        row = incremented (Int.tdiv 9000 totalWorkers) (Int.tdiv (2 * 9000) totalWorkers)
          delivery.now old) ∨
      ∃ payload old, delivery.message = .mergeCallback payload ∧ before = some old ∧
        row = updated 10000 delivery.now 10000 0 old := by
  obtain ⟨message, now⟩ := delivery
  cases message with
  | start payload =>
      cases before with
      | none => exact Or.inr (Or.inl ⟨payload, rfl, (Option.some.inj settled).symm⟩)
      | some old => exact Or.inl settled
  | workerCallback payload =>
      obtain ⟨processingId, workerId, imageURL, total⟩ := payload
      cases total with
      | none => exact Or.inl settled
      | some totalWorkers =>
          by_cases zero : totalWorkers = 0
          · subst zero
            exact Or.inl settled
          · simp only [Delivery.settle, Delivery.effect, divide, if_neg zero] at settled
            obtain ⟨old, found, rfl⟩ := Option.map_eq_some_iff.mp settled
            exact Or.inr (Or.inr (Or.inl ⟨_, totalWorkers, old, rfl, rfl, zero, found, rfl⟩))
  | mergeCallback payload =>
      obtain ⟨old, found, rfl⟩ := Option.map_eq_some_iff.mp settled
      exact Or.inr (Or.inr (Or.inr ⟨payload, old, rfl, found, rfl⟩))

theorem find?_updateAt_of_key (trackers : Trackers) (processingId : String)
    (change : Tracker → Tracker) (keeps : ∀ row, (change row).processingId = row.processingId)
    (wanted : String) :
    (trackers.updateAt processingId change keeps).find? wanted =
      if processingId = wanted then (trackers.find? processingId).map change
      else trackers.find? wanted := by
  rw [KeyedTable.find?_updateAt]
  by_cases same : processingId = wanted
  · subst same
    rfl
  · rw [if_neg same, if_neg (Ne.symm same)]

theorem save_of_free {trackers : Trackers} {row : Tracker}
    (free : trackers.find? row.processingId = none) :
    ∃ next, TrackerRepository.save trackers row = .ok next ∧
      ∀ wanted, next.find? wanted =
        if row.processingId = wanted then some row else trackers.find? wanted := by
  unfold TrackerRepository.save
  cases inserted : trackers.insertAll? [row] with
  | none =>
      obtain ⟨old, found⟩ := (trackers.insertAll?_singleton_eq_none_iff row).mp inserted
      rw [found] at free
      cases free
  | some next =>
      refine ⟨next, rfl, ?_⟩
      intro wanted
      rw [KeyedTable.find?_of_insertAll?_singleton inserted wanted]
      simp only [eq_comm]

theorem save_of_taken {trackers : Trackers} {row old : Tracker}
    (taken : trackers.find? row.processingId = some old) :
    TrackerRepository.save trackers row = .error .dataIntegrityViolation := by
  unfold TrackerRepository.save
  rw [(trackers.insertAll?_singleton_eq_none_iff row).mpr ⟨old, taken⟩]

private theorem receive_of_effect_error {trackers : Trackers} {delivery : Delivery}
    {failure : Failure}
    (effect : delivery.effect (trackers.find? delivery.message.processingId) = .error failure) :
    receive trackers delivery = .error failure := by
  obtain ⟨message, now⟩ := delivery
  cases message with
  | start payload =>
      change Delivery.effect _ (trackers.find? payload.processingId) = _ at effect
      cases found : trackers.find? payload.processingId with
      | none =>
          rw [found] at effect
          cases effect
      | some old =>
          rw [found] at effect
          obtain rfl := Except.error.inj effect
          exact save_of_taken found
  | workerCallback payload =>
      obtain ⟨processingId, workerId, imageURL, total⟩ := payload
      cases total with
      | none =>
          obtain rfl := Except.error.inj effect
          rfl
      | some totalWorkers =>
          by_cases zero : totalWorkers = 0
          · subst zero
            obtain rfl := Except.error.inj effect
            rfl
          · simp only [Delivery.effect, divide, if_neg zero] at effect
            cases effect
  | mergeCallback payload => cases effect

private theorem receive_of_effect_ok {trackers : Trackers} {delivery : Delivery}
    {row : Option Tracker}
    (effect : delivery.effect (trackers.find? delivery.message.processingId) = .ok row) :
    ∃ next, receive trackers delivery = .ok next ∧
      ∀ wanted, next.find? wanted =
        if delivery.message.processingId = wanted then row else trackers.find? wanted := by
  obtain ⟨message, now⟩ := delivery
  cases message with
  | start payload =>
      change Delivery.effect _ (trackers.find? payload.processingId) = _ at effect
      cases found : trackers.find? payload.processingId with
      | none =>
          rw [found] at effect
          obtain rfl := Except.ok.inj effect
          have free : trackers.find? (newTracker payload.processingId now).processingId = none :=
            found
          exact save_of_free free
      | some old =>
          rw [found] at effect
          cases effect
  | workerCallback payload =>
      obtain ⟨processingId, workerId, imageURL, total⟩ := payload
      cases total with
      | none => cases effect
      | some totalWorkers =>
          by_cases zero : totalWorkers = 0
          · subst zero
            cases effect
          · simp only [Delivery.effect, divide, if_neg zero] at effect
            obtain rfl := Except.ok.inj effect
            simp only [receive, Listener.receiveWorkerCallbackMessage,
              TrackerService.updateProcessingWhenWorkerFinished, divide, if_neg zero]
            exact ⟨_, rfl, find?_updateAt_of_key trackers processingId _
              (TrackerRepository.processingId_incremented _ _ now)⟩
  | mergeCallback payload =>
      obtain rfl := Except.ok.inj effect
      exact ⟨_, rfl, find?_updateAt_of_key trackers payload.processingId _
        (TrackerRepository.processingId_updated 10000 now 10000 0)⟩

theorem receive_eq_ok_iff (trackers : Trackers) (delivery : Delivery) :
    (∃ next, receive trackers delivery = .ok next) ↔
      ∃ row, delivery.effect (trackers.find? delivery.message.processingId) = .ok row := by
  cases effect : delivery.effect (trackers.find? delivery.message.processingId) with
  | error failure =>
      rw [receive_of_effect_error effect]
      simp
  | ok row =>
      obtain ⟨next, received, _⟩ := receive_of_effect_ok effect
      exact iff_of_true ⟨next, received⟩ ⟨row, rfl⟩

theorem find?_handle (trackers : Trackers) (delivery : Delivery) (wanted : String) :
    (handle trackers delivery).find? wanted =
      if delivery.message.processingId = wanted then delivery.settle (trackers.find? wanted)
      else trackers.find? wanted := by
  unfold handle
  cases effect : delivery.effect (trackers.find? delivery.message.processingId) with
  | error failure =>
      rw [receive_of_effect_error effect]
      by_cases same : delivery.message.processingId = wanted
      · subst same
        rw [if_pos rfl, Delivery.settle, effect]
      · rw [if_neg same]
  | ok row =>
      obtain ⟨next, received, found⟩ := receive_of_effect_ok effect
      rw [received]
      change next.find? wanted = _
      rw [found wanted]
      by_cases same : delivery.message.processingId = wanted
      · subst same
        rw [if_pos rfl, if_pos rfl, Delivery.settle, effect]
      · rw [if_neg same, if_neg same]

private theorem handle_of_effect {processingId : String} {trackers : Trackers} {delivery : Delivery}
    {row : Option Tracker} (same : delivery.message.processingId = processingId)
    (effect : delivery.effect (trackers.find? processingId) = .ok row) :
    (∃ next, receive trackers delivery = .ok next) ∧
      (handle trackers delivery).find? processingId = row := by
  subst same
  refine ⟨(receive_eq_ok_iff trackers delivery).mpr ⟨row, effect⟩, ?_⟩
  rw [find?_handle, if_pos rfl, Delivery.settle, effect]

theorem tracker_runs (trackers : Trackers) (deliveries : List Delivery) :
    ∃ finish, tracker.Runs trackers deliveries finish := by
  induction deliveries generalizing trackers with
  | nil => exact ⟨trackers, rfl⟩
  | cons delivery rest ih =>
      obtain ⟨finish, reached⟩ := ih (handle trackers delivery)
      exact ⟨finish, (tracker.runs_cons _ _ _ _).mpr ⟨_, rfl, reached⟩⟩

theorem tracker_step (trackers next : Trackers) (delivery : Delivery) :
    tracker.step trackers delivery = some next ↔ handle trackers delivery = next := by
  simp [tracker]

theorem rows_of_runs {condition : Trackers → Delivery → Prop} {property : Tracker → Prop}
    (preserved : ∀ state delivery row, condition state delivery →
      (∀ old, state.find? delivery.message.processingId = some old → property old) →
      delivery.settle (state.find? delivery.message.processingId) = some row → property row)
    {deliveries : List Delivery} {trackers : Trackers}
    (every : tracker.EveryStep condition KeyedTable.empty deliveries)
    (reached : tracker.Runs KeyedTable.empty deliveries trackers)
    {processingId : String} {row : Tracker} (found : trackers.find? processingId = some row) :
    property row := by
  have step : ∀ state delivery next,
      (∀ wanted old, state.find? wanted = some old → property old) → condition state delivery →
      tracker.step state delivery = some next →
      ∀ wanted old, next.find? wanted = some old → property old := by
    intro state delivery next holds allowed stepped wanted old foundNext
    rw [← (tracker_step state next delivery).mp stepped, find?_handle] at foundNext
    by_cases same : delivery.message.processingId = wanted
    · subst same
      rw [if_pos rfl] at foundNext
      exact preserved state delivery old allowed (holds _) foundNext
    · rw [if_neg same] at foundNext
      exact holds wanted old foundNext
  have initially : ∀ wanted old,
      (KeyedTable.empty : Trackers).find? wanted = some old → property old := by
    intro wanted old none
    cases none
  exact reached.invariant_of_everyStep step initially every processingId row found

/-- Where the two quotients of a report vanish. -/
theorem shares_of_pos {totalWorkers : ℤ} (positive : 0 < totalWorkers) :
    (Int.tdiv 9000 totalWorkers = 0 ↔ 9000 < totalWorkers) ∧
      (18000 < totalWorkers → Int.tdiv (2 * 9000) totalWorkers = 0) ∧
      (9000 < totalWorkers → totalWorkers ≤ 18000 → Int.tdiv (2 * 9000) totalWorkers = 1) := by
  rw [Int.tdiv_eq_ediv_of_nonneg (by decide), Int.tdiv_eq_ediv_of_nonneg (by decide),
    Int.ediv_eq_iff_of_pos positive, Int.ediv_eq_iff_of_pos positive,
    Int.ediv_eq_iff_of_pos positive]
  omega

/-- The messages that one processing sends to the tracker: one report for each of its
workers, which carries the number of workers. -/
structure Workload (processingId : String) where
  start : EchoStartMessage
  callbacks : List EchoWorkerCallbackMessage
  merge : EchoMergeCallbackMessage
  startOf : start.processingId = processingId
  callbacksOf : ∀ callback ∈ callbacks, callback.processingId = processingId
  mergeOf : merge.processingId = processingId
  totals : ∀ callback ∈ callbacks, callback.trackerTotalWorkers = some (callbacks.length : ℤ)

namespace Workload

variable {processingId : String} (workload : Workload processingId)

def messages : List Message :=
  .start workload.start :: .mergeCallback workload.merge ::
    workload.callbacks.map Message.workerCallback

/-- What one report adds to `progress`. -/
def share : ℤ := Int.tdiv 9000 workload.callbacks.length

/-- What one report adds to the old `progress` to get `maxProgress`. -/
def maxShare : ℤ := Int.tdiv (2 * 9000) workload.callbacks.length

theorem share_nonneg : 0 ≤ workload.share :=
  Int.tdiv_nonneg (by decide) (Int.natCast_nonneg _)

/-- All the reports together stay below the part of the bar that is theirs. -/
theorem length_mul_share_le : workload.callbacks.length * workload.share ≤ 9000 := by
  rw [share, Int.tdiv_eq_ediv_of_nonneg (by decide)]
  by_cases none : (workload.callbacks.length : ℤ) = 0
  · rw [none]
    decide
  · exact Int.mul_ediv_self_le none

private theorem callback_effect {callback : EchoWorkerCallbackMessage} (now : Instant)
    (member : callback ∈ workload.callbacks) (row : Option Tracker) :
    Delivery.effect { message := .workerCallback callback, now := now } row =
      .ok (row.map (incremented workload.share workload.maxShare now)) := by
  have some_worker : (workload.callbacks.length : ℤ) ≠ 0 := by
    have := List.length_pos_of_mem member
    omega
  simp only [Delivery.effect, workload.totals callback member, divide, if_neg some_worker]
  rfl

theorem handle_report (trackers : Trackers) {delivery : Delivery}
    (report : ∃ callback ∈ workload.callbacks, delivery.message = .workerCallback callback) :
    (∃ next, receive trackers delivery = .ok next) ∧
      (handle trackers delivery).find? processingId =
        (trackers.find? processingId).map
          (incremented workload.share workload.maxShare delivery.now) := by
  obtain ⟨message, now⟩ := delivery
  obtain ⟨callback, member, rfl⟩ := report
  have same : (Message.workerCallback callback).processingId = processingId :=
    workload.callbacksOf callback member
  exact handle_of_effect same (workload.callback_effect now member _)

theorem handle_start {trackers : Trackers} {delivery : Delivery}
    (start : delivery.message = .start workload.start)
    (absent : trackers.find? processingId = none) :
    (∃ next, receive trackers delivery = .ok next) ∧
      (handle trackers delivery).find? processingId =
        some (newTracker workload.start.processingId delivery.now) := by
  obtain ⟨message, now⟩ := delivery
  cases start
  have same : (Message.start workload.start).processingId = processingId := workload.startOf
  apply handle_of_effect same
  rw [absent]
  rfl

theorem handle_merge (trackers : Trackers) {delivery : Delivery}
    (merge : delivery.message = .mergeCallback workload.merge) :
    (∃ next, receive trackers delivery = .ok next) ∧
      (handle trackers delivery).find? processingId =
        (trackers.find? processingId).map (updated 10000 delivery.now 10000 0) := by
  obtain ⟨message, now⟩ := delivery
  cases merge
  have same : (Message.mergeCallback workload.merge).processingId = processingId :=
    workload.mergeOf
  exact handle_of_effect same rfl

end Workload

namespace Sample

def aoi : Aoi :=
  { crs := .epsg32613
    upperLeft := some { x := 0, y := 2000 }
    upperRight := some { x := 2000, y := 2000 }
    lowerLeft := some { x := 0, y := 0 }
    lowerRight := some { x := 2000, y := 0 } }

def start : EchoStartMessage :=
  { processingId := "p", imageURL := "/in.tif", aoi := aoi }

def callback : EchoWorkerCallbackMessage :=
  { processingId := "p"
    workerId := "w"
    imageURL := "/p_tile_w.tif"
    trackerTotalWorkers := some 1 }

def merge : EchoMergeCallbackMessage :=
  { processingId := "p", imageURL := "/p.tif", aoi := aoi }

def workload : Workload "p" where
  start := start
  callbacks := [callback]
  merge := merge
  startOf := rfl
  callbacksOf := by decide
  mergeOf := rfl
  totals := by decide

def deliveries : List Message → List Delivery :=
  List.mapIdx (fun index message => { message := message, now := index * nanosOfSecond })

def inOrder : List Delivery :=
  deliveries [.start start, .workerCallback callback, .mergeCallback merge]

end Sample

end EchoProcessing.Tracking
