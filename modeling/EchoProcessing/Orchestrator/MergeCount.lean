/-
How many merges a processing gets.

The orchestrator keeps no record that a merge was triggered, so every callback that
is delivered when all workers are done publishes one more; the merger answers the
later ones from the result it finds. The count is therefore the number of deliveries
from the one that makes the set of reports complete on.
-/

import EchoProcessing.Orchestrator.MergeSafety

namespace EchoProcessing.Orchestrator

open EchoWorkerRepository EchoWorkerService

variable {processingId : String} {events : List Event} {system next : System} {event : Event}

def CommittedFor (events : List Event) (workerId : String) : Prop :=
  ∃ message scan, .callback message scan .committed ∈ events ∧ message.workerId = workerId

def Covers (db : Database) (processingId : String) (events : List Event) : Prop :=
  ∀ row ∈ ofProcessing db processingId, CommittedFor events row.workerId

def Event.isCallbackOf (processingId : String) : Event → Bool
  | .callback message _ _ => message.processingId = processingId
  | _ => false

def deliveriesOf (processingId : String) (events : List Event) : ℕ :=
  events.countP (Event.isCallbackOf processingId)

def mergesOf (processingId : String) (system : System) : ℕ :=
  system.mergeMessages.countP (fun merge => merge.processingId = processingId)

def System.written? (system : System) : Event → Option EchoWorker
  | .startEchoWorker handler strategy .committed =>
      match system.handlers handler with
      | .starting _ _ (worker :: _) =>
          if worker.state = .init ∧ strategy .afterProcessingWorkerInDatabase = false then
            some worker
          else none
      | _ => none
  | _ => none

/-- No `startEchoWorker` writes its copy of a worker of the processing over a row that is
done already. -/
def SparesDone (processingId : String) (system : System) (event : Event) : Prop :=
  ∀ worker ∈ system.written? event, worker.processingId = processingId →
    ∀ row ∈ findByWorkerId system.db worker.workerId, row.state ≠ .done

instance (processingId : String) (system : System) (event : Event) :
    Decidable (SparesDone processingId system event) :=
  inferInstanceAs (Decidable (∀ worker ∈ system.written? event, _ → _))

/-! ### The rows of the processing -/

private theorem committedFor_append (events : List Event) (event : Event) (workerId : String) :
    CommittedFor (events ++ [event]) workerId ↔
      CommittedFor events workerId ∨ CommittedFor [event] workerId := by
  unfold CommittedFor
  simp only [List.mem_append, or_and_right, exists_or]

private theorem committedFor_append_of_ne {workerId : String}
    (other : ∀ message scan, event ≠ .callback message scan .committed) :
    CommittedFor (events ++ [event]) workerId ↔ CommittedFor events workerId := by
  rw [committedFor_append, or_iff_left]
  rintro ⟨message, scan, member, _⟩
  exact other message scan (List.mem_singleton.mp member).symm

/-- The rows are done exactly where a callback of them was committed. -/
structure FollowsReports (processingId : String) (events : List Event) (system : System) :
    Prop where
  consistent : Consistent system
  delivered : ∀ workerId, CommittedFor events workerId →
    ∃ message ∈ system.delivered, message.workerId = workerId
  done : ∀ row ∈ ofProcessing system.db processingId,
    row.state = .done ↔ CommittedFor events row.workerId

private theorem FollowsReports.covers_iff (follows : FollowsReports processingId events system) :
    Covers system.db processingId events ↔
      ∀ row ∈ ofProcessing system.db processingId, row.state = .done :=
  forall₂_congr (fun row member => (follows.done row member).symm)

theorem FollowsReports.not_committedFor_of_new
    (follows : FollowsReports processingId events system) {database : Database}
    {workers : List EchoWorker} (rows : database.workers.rows = system.db.workers.rows ++ workers)
    {row : EchoWorker} (member : row ∈ workers) : ¬CommittedFor events row.workerId := by
  intro committed
  obtain ⟨message, delivered, sameWorker⟩ := follows.delivered _ committed
  obtain ⟨old, found, _⟩ :=
    follows.consistent.row_of_callback (follows.consistent.delivered message delivered)
  obtain ⟨oldMember, oldWorker⟩ := (findByWorkerId_eq_some_iff _ _ _).mp found
  have unique := database.workers.unique
  rw [rows, List.map_append, List.nodup_append'] at unique
  exact unique.2.2 (List.mem_map_of_mem oldMember)
    (List.mem_map.mpr ⟨row, member, sameWorker.symm.trans oldWorker.symm⟩)

private theorem quiet_of_started {handler : ℕ} {strategy : ErrorStrategy}
    {message : EchoStartMessage} {totalWorkers : ℤ} {worker : EchoWorker}
    {rest : List EchoWorker}
    (phase : system.handlers handler = .starting message totalWorkers (worker :: rest))
    (initial : worker.state = .init)
    (stepped : delivery.step system (.startEchoWorker handler strategy .committed) = some next)
    (busy : next.handlers handler ≠ .idle) :
    strategy .afterProcessingWorkerInDatabase = false := by
  cases injected : strategy .afterProcessingWorkerInDatabase with
  | false => rfl
  | true =>
      have refused : EchoWorkerService.startEchoWorker strategy system.db worker totalWorkers =
          .error (.illegalArgument ("Manual error on source " ++
            ErrorSource.afterProcessingWorkerInDatabase.name)) := by
        unfold EchoWorkerService.startEchoWorker applyErrorStrategy
        rw [if_pos initial, if_pos injected]
        rfl
      have stopped := stepped.symm.trans (Performs.workerRefused phase refused).step
      rw [Option.some.inj stopped] at busy
      exact absurd (Function.update_self ..) busy

theorem FollowsReports.step_of_not_callback
    (follows : FollowsReports processingId events system)
    (transition : Transition system event next) (spares : SparesDone processingId system event)
    (stepped : delivery.step system event = some next)
    (other : ∀ message scan outcome, event ≠ .callback message scan outcome) :
    FollowsReports processingId (events ++ [event]) next ∧
      ∀ row ∈ ofProcessing next.db processingId, row.state = .done →
        row ∈ ofProcessing system.db processingId := by
  have reported : ∀ workerId,
      CommittedFor (events ++ [event]) workerId ↔ CommittedFor events workerId :=
    fun _ => committedFor_append_of_ne (fun message scan => other message scan .committed)
  have consistent := transition.consistent follows.consistent
  have finish : next.delivered = system.delivered →
      (∀ row ∈ ofProcessing next.db processingId,
        row ∈ ofProcessing system.db processingId ∨
          row.state ≠ .done ∧ ¬CommittedFor events row.workerId) →
      FollowsReports processingId (events ++ [event]) next ∧
        ∀ row ∈ ofProcessing next.db processingId, row.state = .done →
          row ∈ ofProcessing system.db processingId := by
    intro sameDelivered rows
    refine ⟨{ consistent := consistent, delivered := ?_, done := ?_ }, ?_⟩
    · intro workerId committed
      rw [sameDelivered]
      exact follows.delivered workerId ((reported workerId).mp committed)
    · intro row member
      rw [reported]
      rcases rows row member with old | ⟨unfinished, unreported⟩
      · exact follows.done row old
      · exact iff_of_false unfinished unreported
    · intro row member isDone
      exact (rows row member).resolve_right (fun new => new.1 isDone)
  cases transition with
  | orchestratorInserted phase transform missing sameWorkers rowKey rows =>
      apply finish rfl
      intro row member
      exact Or.inl (ofProcessing_of_workers_eq sameWorkers processingId ▸ member)
  | workersInserted phase gridEq absent workersEq sameOrchestrators rows =>
      apply finish rfl
      intro row member
      obtain ⟨stored, own⟩ := (mem_ofProcessing _ _ _).mp member
      rcases List.mem_append.mp (rows ▸ stored) with old | new
      · exact Or.inl ((mem_ofProcessing _ _ _).mpr ⟨old, own⟩)
      · right
        refine ⟨?_, follows.not_committedFor_of_new rows new⟩
        rw [(mem_newWorkers (workersEq ▸ new)).2]
        exact nofun
  | @startCommitted handler strategy message totalWorkers worker rest phase initial =>
      have copies : system.db.Copies (started worker) :=
        (follows.consistent.head_copies phase).1.of_assignment_eq rfl
      apply finish rfl
      intro row member
      rcases mem_ofProcessing_save copies member with ⟨old, _⟩ | rfl
      · exact Or.inl old
      · right
        refine ⟨nofun, ?_⟩
        obtain ⟨old, stored, sameWorker, sameProcessing⟩ := row_of_copies copies
        have own := ((mem_ofProcessing _ _ _).mp member).2
        have quiet := quiet_of_started phase initial stepped
          ((Function.update_self ..).trans_ne nofun)
        have written : system.written? (.startEchoWorker handler strategy .committed) =
            some worker := by
          simp only [System.written?, phase, initial, quiet, and_self, if_true]
        have found : findByWorkerId system.db worker.workerId = some old :=
          (findByWorkerId_eq_some_iff _ _ _).mpr ⟨stored, sameWorker⟩
        have unfinished := spares worker written own old found
        have listed := (mem_ofProcessing _ _ _).mpr ⟨stored, sameProcessing.trans own⟩
        rw [Ne, follows.done old listed, sameWorker] at unfinished
        exact unfinished
  | callbackDropped published | callbackCommitted published found | callbackRolledBack published =>
      exact absurd rfl (other _ _ _)
  | _ => exact finish rfl (fun row member => Or.inl member)

theorem FollowsReports.ownUpdate (follows : FollowsReports processingId events system)
    {message : EchoWorkerCallbackMessage} (published : message ∈ system.callbackMessages)
    (scan : Scan) :
    FollowsReports processingId (events ++ [.callback message scan .committed])
      { system with
        db := Orchestrator.ownUpdate system.db message
        delivered := system.delivered ++ [message] } := by
  obtain ⟨row, found, sameProcessing⟩ := follows.consistent.row_of_callback published
  obtain ⟨rowMember, rowWorker⟩ := (findByWorkerId_eq_some_iff _ _ _).mp found
  have copies : system.db.Copies (finished row message.imageURL) :=
    (Database.copies_of_mem rowMember).of_assignment_eq rfl
  have updateEq : Orchestrator.ownUpdate system.db message =
      save system.db (finished row message.imageURL) := by
    unfold Orchestrator.ownUpdate
    rw [found]
  have own : ∀ workerId, CommittedFor [.callback message scan .committed] workerId ↔
      message.workerId = workerId := by
    intro workerId
    constructor
    · rintro ⟨other, order, member, same⟩
      cases List.mem_singleton.mp member
      exact same
    · exact fun same => ⟨message, scan, List.mem_singleton_self _, same⟩
  refine ⟨follows.consistent.afterOwnUpdate published, ?_, ?_⟩
  · intro workerId committed
    rcases (committedFor_append _ _ _).mp committed with earlier | last
    · obtain ⟨old, delivered, same⟩ := follows.delivered workerId earlier
      exact ⟨old, List.mem_append_left _ delivered, same⟩
    · exact ⟨message, List.mem_append_right _ (List.mem_singleton_self message),
        (own workerId).mp last⟩
  · intro other member
    change other ∈ ofProcessing (Orchestrator.ownUpdate system.db message) processingId at member
    rw [committedFor_append, own]
    rw [updateEq] at member
    rcases mem_ofProcessing_save copies member with ⟨old, different⟩ | rfl
    · have unreported : message.workerId ≠ other.workerId :=
        fun same => different (same.symm.trans rowWorker.symm)
      rw [or_iff_left unreported]
      exact follows.done other old
    · exact iff_of_true rfl (Or.inr rowWorker.symm)

theorem FollowsReports.callback (follows : FollowsReports processingId events system)
    {message : EchoWorkerCallbackMessage} {scan : Scan} {outcome : Outcome}
    (stepped : delivery.step system (.callback message scan outcome) = some next) :
    FollowsReports processingId (events ++ [.callback message scan outcome]) next := by
  obtain ⟨published, merge, _, rfl⟩ := callback_step follows.consistent stepped
  cases outcome with
  | committed =>
      have updated := follows.ownUpdate published scan
      exact { updated with consistent := { updated.consistent with } }
  | rolledBack =>
      have reported : ∀ workerId, CommittedFor (events ++ [.callback message scan .rolledBack])
          workerId ↔ CommittedFor events workerId :=
        fun _ => committedFor_append_of_ne (fun _ _ => nofun)
      have delivered := follows.consistent.deliver published
      refine { consistent := { delivered with }, delivered := ?_, done := ?_ }
      · intro workerId committed
        obtain ⟨old, member, same⟩ := follows.delivered workerId ((reported workerId).mp committed)
        exact ⟨old, List.mem_append_left _ member, same⟩
      · intro row member
        rw [reported]
        exact follows.done row member

theorem Transition.workerIds (transition : Transition system event next)
    (consistent : Consistent system) (present : ofProcessing system.db processingId ≠ []) :
    (ofProcessing next.db processingId).map EchoWorker.workerId =
      (ofProcessing system.db processingId).map EchoWorker.workerId := by
  cases transition with
  | orchestratorInserted phase transform missing sameWorkers rowKey rows =>
      exact congrArg _ (ofProcessing_of_workers_eq sameWorkers processingId)
  | workersInserted phase gridEq absent workersEq sameOrchestrators rows =>
      refine congrArg _ (ofProcessing_append_other rows ?_)
      rintro row new rfl
      rw [(mem_newWorkers (workersEq ▸ new)).1] at present
      exact present absent
  | @startCommitted handler strategy message totalWorkers worker rest phase initial =>
      have copies : system.db.Copies (started worker) :=
        (consistent.head_copies phase).1.of_assignment_eq rfl
      exact map_ofProcessing_save copies processingId _ workerId_of_assignment
  | @callbackCommitted message scan row merge published found =>
      have member := ((findByWorkerId_eq_some_iff _ _ _).mp found).1
      have copies : system.db.Copies (finished row message.imageURL) :=
        (Database.copies_of_mem member).of_assignment_eq rfl
      exact map_ofProcessing_save copies processingId _ workerId_of_assignment
  | _ => rfl

private theorem covers_congr {db other : Database}
    (same : (ofProcessing other processingId).map EchoWorker.workerId =
      (ofProcessing db processingId).map EchoWorker.workerId) :
    Covers other processingId events ↔ Covers db processingId events := by
  have byId : ∀ rows : List EchoWorker, (∀ row ∈ rows, CommittedFor events row.workerId) ↔
      ∀ workerId ∈ rows.map EchoWorker.workerId, CommittedFor events workerId := by
    intro rows
    rw [List.forall_mem_map]
  unfold Covers
  rw [byId, byId, same]

/-! ### The count -/

def AllDone (processingId : String) (system : System) : Prop :=
  ofProcessing system.db processingId ≠ [] ∧
    ∀ row ∈ ofProcessing system.db processingId, row.state = .done

def NoneRolledBack (processingId : String) (events : List Event) : Prop :=
  ∀ message scan, message.processingId = processingId →
    .callback message scan .rolledBack ∉ events

/-- The run up to the callback that completes the reports, and the merges from there on. -/
structure CountedFrom (processingId : String) (events : List Event) (system : System)
    (before : List Event) (message : EchoWorkerCallbackMessage) (scan : Scan)
    (after : List Event) (current : System) : Prop where
  split : events = before ++ .callback message scan .committed :: after
  own : message.processingId = processingId
  reached : delivery.Runs (System.initial Database.empty) before current
  incomplete : ¬Covers system.db processingId before
  complete : Covers system.db processingId (before ++ [.callback message scan .committed])
  merges : mergesOf processingId system =
    mergesOf processingId current + 1 + deliveriesOf processingId after
  none : NoneRolledBack processingId before → mergesOf processingId current = 0

/-- Either the reports are incomplete, or there is a merge for each delivery from the
completing one on. -/
structure MergesSoFar (processingId : String) (events : List Event) (system : System) :
    Prop where
  reached : delivery.Runs (System.initial Database.empty) events system
  follows : FollowsReports processingId events system
  count : (¬AllDone processingId system ∧
      (NoneRolledBack processingId events → mergesOf processingId system = 0)) ∨
    ∃ before message scan after current,
      CountedFrom processingId events system before message scan after current

theorem CountedFrom.present {before after : List Event} {message : EchoWorkerCallbackMessage}
    {scan : Scan} {current : System}
    (counted : CountedFrom processingId events system before message scan after current) :
    ofProcessing system.db processingId ≠ [] := by
  intro empty
  apply counted.incomplete
  intro row member
  rw [empty] at member
  cases member

theorem CountedFrom.allDone {before after : List Event} {message : EchoWorkerCallbackMessage}
    {scan : Scan} {current : System}
    (counted : CountedFrom processingId events system before message scan after current)
    (follows : FollowsReports processingId events system) : AllDone processingId system := by
  refine ⟨counted.present, follows.covers_iff.mp ?_⟩
  intro row member
  obtain ⟨other, order, listed, same⟩ := counted.complete row member
  refine ⟨other, order, ?_, same⟩
  rw [counted.split]
  rcases List.mem_append.mp listed with earlier | last
  · exact List.mem_append_left _ earlier
  · rw [List.mem_singleton.mp last]
    exact List.mem_append_right _ List.mem_cons_self

private theorem CountedFrom.snoc {before after : List Event} {message : EchoWorkerCallbackMessage}
    {scan : Scan} {current : System}
    (counted : CountedFrom processingId events system before message scan after current)
    (same : (ofProcessing next.db processingId).map EchoWorker.workerId =
      (ofProcessing system.db processingId).map EchoWorker.workerId)
    (merges : mergesOf processingId next =
      mergesOf processingId system + deliveriesOf processingId [event]) :
    CountedFrom processingId (events ++ [event]) next before message scan (after ++ [event])
      current :=
  { split := by rw [counted.split, List.append_assoc, List.cons_append]
    own := counted.own
    reached := counted.reached
    incomplete := fun covers => counted.incomplete ((covers_congr same).mp covers)
    complete := (covers_congr same).mpr counted.complete
    merges := by
      unfold deliveriesOf at merges ⊢
      rw [merges, counted.merges, List.countP_append]
      unfold deliveriesOf
      omega
    none := counted.none }

private theorem mergesOf_append (processingId : String) (system : System)
    (merge : Option EchoMergeMessage) :
    (system.mergeMessages ++ merge.toList).countP
        (fun published => published.processingId = processingId) =
      mergesOf processingId system +
        merge.toList.countP (fun published => published.processingId = processingId) :=
  List.countP_append ..

theorem NoneRolledBack.of_append (none : NoneRolledBack processingId (events ++ [event])) :
    NoneRolledBack processingId events :=
  fun message scan own member => none message scan own (List.mem_append_left _ member)

theorem MergesSoFar.step_of_not_callback (soFar : MergesSoFar processingId events system)
    (spares : SparesDone processingId system event)
    (stepped : delivery.step system event = some next)
    (other : ∀ message scan outcome, event ≠ .callback message scan outcome) :
    MergesSoFar processingId (events ++ [event]) next := by
  have transition := step_transition stepped
  obtain ⟨follows, old⟩ := soFar.follows.step_of_not_callback transition spares stepped other
  have merges : mergesOf processingId next = mergesOf processingId system := by
    cases transition with
    | callbackDropped published | callbackCommitted published found
    | callbackRolledBack published => exact absurd rfl (other _ _ _)
    | _ => rfl
  have silent : deliveriesOf processingId [event] = 0 := by
    cases event with
    | callback message scan outcome => exact absurd rfl (other _ _ _)
    | _ => rfl
  have ids : ofProcessing system.db processingId ≠ [] → _ :=
    transition.workerIds soFar.follows.consistent
  refine
    { reached := (Machine.runs_snoc _ _ _ _ _).mpr ⟨system, soFar.reached, stepped⟩
      follows := follows
      count := ?_ }
  rcases soFar.count with ⟨incomplete, none⟩ | ⟨before, message, scan, after, current, counted⟩
  · left
    refine ⟨?_, fun quiet => merges.trans (none quiet.of_append)⟩
    rintro ⟨present, everyDone⟩
    obtain ⟨row, member⟩ := List.exists_mem_of_ne_nil _ present
    have before : ofProcessing system.db processingId ≠ [] :=
      List.ne_nil_of_mem (old row member (everyDone row member))
    have reported : Covers next.db processingId events := by
      intro done doneMember
      exact (soFar.follows.done done (old done doneMember (everyDone done doneMember))).mp
        (everyDone done doneMember)
    exact incomplete ⟨before, soFar.follows.covers_iff.mp ((covers_congr (ids before)).mp reported)⟩
  · right
    exact ⟨before, message, scan, after ++ [event], current,
      counted.snoc (ids counted.present) (by rw [merges, silent, Nat.add_zero])⟩

private theorem countP_of_other {scan : Scan} {db : Database}
    {message : EchoWorkerCallbackMessage} {merge : Option EchoMergeMessage}
    (decides : DecidesMerge scan db message.processingId merge)
    (other : message.processingId ≠ processingId) :
    merge.toList.countP (fun published => published.processingId = processingId) = 0 := by
  rcases decides with ⟨rfl, _⟩ | ⟨published, rfl, _, same, _⟩
  · rfl
  · simp [same, other]

private theorem countP_of_decided {scan : Scan} {db : Database} {merge : Option EchoMergeMessage}
    (decides : DecidesMerge scan db processingId merge)
    (everyDone : ∀ row ∈ ofProcessing db processingId, row.state = .done) :
    merge.toList.countP (fun published => published.processingId = processingId) = 1 := by
  rcases decides with ⟨_, incomplete⟩ | ⟨published, rfl, _, same, _⟩
  · exact absurd everyDone incomplete
  · simp [same]

private theorem allDone_ownUpdate (consistent : Consistent system)
    {message : EchoWorkerCallbackMessage} (published : message ∈ system.callbackMessages)
    (everyDone : ∀ row ∈ ofProcessing system.db processingId, row.state = .done) :
    ∀ row ∈ ofProcessing (ownUpdate system.db message) processingId, row.state = .done := by
  obtain ⟨row, found, _⟩ := consistent.row_of_callback published
  have member := ((findByWorkerId_eq_some_iff _ _ _).mp found).1
  have copies : system.db.Copies (finished row message.imageURL) :=
    (Database.copies_of_mem member).of_assignment_eq rfl
  intro other listed
  unfold ownUpdate at listed
  rw [found] at listed
  rcases mem_ofProcessing_save copies listed with ⟨old, _⟩ | rfl
  · exact everyDone other old
  · rfl

/-- A callback publishes exactly when all workers are done after its own update. -/
theorem MergesSoFar.callback (soFar : MergesSoFar processingId events system)
    {message : EchoWorkerCallbackMessage} {scan : Scan} {outcome : Outcome}
    (stepped : delivery.step system (.callback message scan outcome) = some next) :
    MergesSoFar processingId (events ++ [.callback message scan outcome]) next := by
  have consistent := soFar.follows.consistent
  have follows := soFar.follows.callback stepped
  have ids : ofProcessing system.db processingId ≠ [] → _ :=
    (step_transition stepped).workerIds consistent
  refine
    { reached := (Machine.runs_snoc _ _ _ _ _).mpr ⟨system, soFar.reached, stepped⟩
      follows := follows
      count := ?_ }
  obtain ⟨published, merge, decides, rfl⟩ := callback_step consistent stepped
  have counts := mergesOf_append processingId system merge
  by_cases own : message.processingId = processingId
  · have delivered : deliveriesOf processingId [.callback message scan outcome] = 1 := by
      simp [deliveriesOf, Event.isCallbackOf, own]
    rw [own] at decides
    rcases soFar.count with ⟨incomplete, none⟩ | ⟨before, first, order, after, current, counted⟩
    · cases outcome with
      | rolledBack =>
          exact Or.inl ⟨incomplete, fun quiet => absurd
            (List.mem_append_right _ (List.mem_singleton_self _)) (quiet message scan own)⟩
      | committed =>
          rcases decides with ⟨rfl, unfinished⟩ | ⟨decided, rfl, everyDone, same, tiles⟩
          · exact Or.inl ⟨fun all => unfinished all.2,
              fun quiet => counts.trans (none quiet.of_append)⟩
          · right
            obtain ⟨row, found, sameProcessing⟩ := consistent.row_of_callback published
            have member := ((findByWorkerId_eq_some_iff _ _ _).mp found).1
            have present : ofProcessing system.db processingId ≠ [] :=
              List.ne_nil_of_mem ((mem_ofProcessing _ _ _).mpr
                ⟨member, sameProcessing.trans own⟩)
            refine ⟨events, message, scan, [], system, rfl, own, soFar.reached, ?_, ?_, ?_,
              fun quiet => none quiet⟩
            · intro covers
              exact incomplete ⟨present,
                soFar.follows.covers_iff.mp ((covers_congr (ids present)).mp covers)⟩
            · exact follows.covers_iff.mpr everyDone
            · refine counts.trans ?_
              rw [countP_of_decided (Or.inr ⟨decided, rfl, everyDone, same, tiles⟩) everyDone]
              rfl
    · right
      refine ⟨before, first, order, after ++ [.callback message scan outcome], current,
        counted.snoc (ids counted.present) (counts.trans ?_)⟩
      rw [delivered, countP_of_decided decides
        (allDone_ownUpdate consistent published (counted.allDone soFar.follows).2)]
  · have silent : deliveriesOf processingId [.callback message scan outcome] = 0 := by
      simp [deliveriesOf, Event.isCallbackOf, own]
    rw [countP_of_other decides own, Nat.add_zero] at counts
    have rows : ofProcessing (outcome.database system.db (ownUpdate system.db message))
        processingId = ofProcessing system.db processingId := by
      cases outcome with
      | committed => exact ofProcessing_ownUpdate_of_ne consistent published own
      | rolledBack => rfl
    rcases soFar.count with ⟨incomplete, none⟩ | ⟨before, first, order, after, current, counted⟩
    · left
      refine ⟨?_, fun quiet => counts.trans (none quiet.of_append)⟩
      unfold AllDone at incomplete ⊢
      rw [rows]
      exact incomplete
    · exact Or.inr ⟨before, first, order, after ++ [.callback message scan outcome], current,
        counted.snoc (ids counted.present) (by rw [silent]; exact counts)⟩

private theorem mergesSoFar_of_runs
    (spares : delivery.EveryStep (SparesDone processingId) (System.initial Database.empty) events)
    (reached : delivery.Runs (System.initial Database.empty) events system) :
    MergesSoFar processingId events system := by
  induction events using List.reverseRecOn generalizing system with
  | nil =>
      obtain rfl := (delivery.runs_nil _ _).mp reached
      refine
        { reached := rfl
          follows :=
            { consistent := consistent_initial
              delivered := ?_
              done := fun _ member => by cases member }
          count := Or.inl ⟨fun all => all.1 rfl, fun _ => rfl⟩ }
      rintro workerId ⟨message, scan, impossible, _⟩
      cases impossible
  | append_singleton earlier last ih =>
      obtain ⟨before, toBefore, stepped⟩ := (delivery.runs_snoc _ _ _ _).mp reached
      have soFar := ih spares.of_append toBefore
      cases last with
      | callback message scan outcome => exact soFar.callback stepped
      | _ => exact soFar.step_of_not_callback (spares.last toBefore) stepped (fun _ _ _ => nofun)

/-- In a run in which every worker of the processing reports, one merge is published for the
callback that completes the reports and one for each callback delivered after it. -/
theorem merges_from_completion_on
    (reached : delivery.Runs (System.initial Database.empty) events system)
    (spares : delivery.EveryStep (SparesDone processingId) (System.initial Database.empty) events)
    (present : ofProcessing system.db processingId ≠ [])
    (covers : Covers system.db processingId events) :
    ∃ before message scan after current,
      events = before ++ .callback message scan .committed :: after ∧
      message.processingId = processingId ∧
      delivery.Runs (System.initial Database.empty) before current ∧
      ¬Covers system.db processingId before ∧
      Covers system.db processingId (before ++ [.callback message scan .committed]) ∧
      mergesOf processingId system =
        mergesOf processingId current + 1 + deliveriesOf processingId after ∧
      (NoneRolledBack processingId before → mergesOf processingId current = 0) := by
  have soFar := mergesSoFar_of_runs spares reached
  rcases soFar.count with ⟨incomplete, _⟩ | ⟨before, message, scan, after, current, counted⟩
  · exact absurd ⟨present, soFar.follows.covers_iff.mp covers⟩ incomplete
  · exact ⟨before, message, scan, after, current, counted.split, counted.own, counted.reached,
      counted.incomplete, counted.complete, counted.merges, counted.none⟩

namespace Sample

def leftRepeated : List Event :=
  untilLastReport ++ [rightDelivered, leftDelivered]

end Sample

/-- Two workers: a merge for the report that completes the set, and one for the repetition. -/
theorem merges_from_completion_on_left_repeated :
    ∃ system before message scan after current,
      delivery.Runs (System.initial Database.empty) Sample.leftRepeated system ∧
      Sample.leftRepeated = before ++ .callback message scan .committed :: after ∧
      mergesOf "p" system = mergesOf "p" current + 1 + deliveriesOf "p" after ∧
      mergesOf "p" system = 2 := by
  have observed : (delivery.run (System.initial Database.empty) Sample.leftRepeated).map
      (fun system => ((ofProcessing system.db "p").map EchoWorker.workerId,
        mergesOf "p" system)) = some (["v", "w"], 2) := by
    decide +kernel
  obtain ⟨system, reached, values⟩ := Option.map_eq_some_iff.mp observed
  obtain ⟨ids, two⟩ := Prod.mk.inj values
  have spares : delivery.EveryStep (SparesDone "p") (System.initial Database.empty)
      Sample.leftRepeated := by
    decide +kernel
  have present : ofProcessing system.db "p" ≠ [] := by
    intro empty
    rw [empty] at ids
    cases ids
  have left : CommittedFor Sample.leftRepeated "v" :=
    ⟨Sample.leftMessage.callback, .insertionOrder,
      by simp [Sample.leftRepeated, Sample.leftDelivered], rfl⟩
  have right : CommittedFor Sample.leftRepeated "w" :=
    ⟨Sample.rightMessage.callback, .insertionOrder,
      by simp [Sample.leftRepeated, Sample.rightDelivered], rfl⟩
  have covers : Covers system.db "p" Sample.leftRepeated := by
    intro row member
    have listed := List.mem_map_of_mem (f := EchoWorker.workerId) member
    rw [ids] at listed
    rcases List.mem_pair.mp listed with same | same
    · exact same ▸ left
    · exact same ▸ right
  obtain ⟨before, message, scan, after, current, split, _, _, _, _, count, _⟩ :=
    merges_from_completion_on reached spares present covers
  exact ⟨system, before, message, scan, after, current, reached, split, count, two⟩

/-- One worker, its callback delivered twice: two merges. -/
theorem redelivered_callback_merges_twice :
    ∃ system, delivery.Runs (System.initial Database.empty)
        (Sample.untilReported ++ [Sample.reportDelivered, Sample.reportDelivered]) system ∧
      (ofProcessing system.db "p").map EchoWorker.workerId = ["w"] ∧
      CommittedFor (Sample.untilReported ++ [Sample.reportDelivered]) "w" ∧
      mergesOf "p" system = 2 := by
  have observed : (delivery.run (System.initial Database.empty)
      (Sample.untilReported ++ [Sample.reportDelivered, Sample.reportDelivered])).map
        (fun system => ((ofProcessing system.db "p").map EchoWorker.workerId,
          mergesOf "p" system)) = some (["w"], 2) := by
    decide +kernel
  obtain ⟨system, reached, values⟩ := Option.map_eq_some_iff.mp observed
  obtain ⟨ids, two⟩ := Prod.mk.inj values
  refine ⟨system, reached, ids, ⟨Sample.workerMessage.callback, .insertionOrder, ?_, rfl⟩, two⟩
  exact List.mem_append_right _ (List.mem_singleton_self _)

end EchoProcessing.Orchestrator
