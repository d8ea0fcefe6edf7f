/-
The merge when no race happens.

Between the statements of two transactions three things can go wrong: a second insertion,
the write of a stale copy, and a report that is committed on an answer that no longer
holds. A run of statements without these merges what a run of whole transactions does.
-/

import EchoProcessing.Orchestrator.DuplicateRows
import EchoProcessing.Orchestrator.LostUpdate
import EchoProcessing.Orchestrator.Provenance

namespace EchoProcessing.Orchestrator.Sessions

open EchoWorkerRepository EchoWorkerService

def MergeIsOut (processingId : String) (system : System) : Prop :=
  ∃ merge ∈ system.mergeMessages, merge.processingId = processingId

instance (processingId : String) (system : System) : Decidable (MergeIsOut processingId system) :=
  inferInstanceAs (Decidable (∃ merge ∈ system.mergeMessages, _))

/-- Once all rows of the processing are done, a merge is out. -/
def MergedWhenDone (processingId : String) (system : System) : Prop :=
  allDone system.db processingId = true → MergeIsOut processingId system

def CallbackPhase.unmerged? : CallbackPhase → Option (EchoWorkerCallbackMessage × EchoWorker)
  | .queried message row false => some (message, row)
  | _ => none

def System.unmerged? (system : System) : Event → Option (EchoWorkerCallbackMessage × EchoWorker)
  | .commit transaction => (system.callbacks transaction).unmerged?
  | _ => none

/-- Where a report of the processing is committed without a merge, some worker is still not
done, or a merge is out. -/
def AnswerStillHolds (processingId : String) (system : System) (event : Event) : Prop :=
  ∀ report ∈ system.unmerged? event, report.1.processingId = processingId →
    allDone (system.view report.1 report.2) processingId = true → MergeIsOut processingId system

instance (processingId : String) (system : System) (event : Event) :
    Decidable (AnswerStillHolds processingId system event) :=
  inferInstanceAs (Decidable (∀ report ∈ system.unmerged? event, _))

def PublishedOwn (system : System) : Prop :=
  ∀ transaction message row, system.callbacks transaction = .published message row →
    MergeIsOut message.processingId system

variable {processingId : String} {system next : System} {event : Event}

theorem MergeIsOut.append (out : MergeIsOut processingId system) (merge : EchoMergeMessage) :
    MergeIsOut processingId { system with mergeMessages := system.mergeMessages ++ [merge] } := by
  obtain ⟨earlier, member, own⟩ := out
  exact ⟨earlier, List.mem_append_left _ member, own⟩

theorem PublishedOwn.setCallback (published : PublishedOwn system) (transaction : ℕ)
    {phase : CallbackPhase}
    (own : ∀ message row, phase = .published message row →
      MergeIsOut message.processingId system) :
    PublishedOwn (system.setCallback transaction phase) :=
  (Function.forall_update_iff system.callbacks
    (fun _ current => ∀ message row, current = .published message row →
      MergeIsOut message.processingId system)).mpr ⟨own, fun other _ => published other⟩

private theorem Coherent.read_row (coherent : Coherent system) {transaction : ℕ}
    {message : EchoWorkerCallbackMessage} {row : EchoWorker}
    (read : (system.callbacks transaction).row? = some (message, row)) :
    system.db.Copies (finished row message.imageURL) ∧
      row.processingId = message.processingId ∧
      message.imageURL = Image.tileURL row.processingId row.workerId := by
  obtain ⟨sent, copies, sameWorker⟩ := (coherent.callbacks transaction).read message row read
  obtain ⟨_, sameProcessing, tile⟩ := coherent.source_of_callback sent copies sameWorker
  exact ⟨copies.of_assignment_eq rfl, sameProcessing.symm, tile⟩

private theorem Coherent.present_of_read (coherent : Coherent system) {transaction : ℕ}
    {message : EchoWorkerCallbackMessage} {row : EchoWorker}
    (read : (system.callbacks transaction).row? = some (message, row)) :
    ofProcessing system.db message.processingId ≠ [] := by
  obtain ⟨copies, sameProcessing, _⟩ := coherent.read_row read
  obtain ⟨stored, member, _, storedProcessing⟩ := row_of_copies copies
  exact List.ne_nil_of_mem ((mem_ofProcessing _ _ _).mpr
    ⟨member, storedProcessing.trans sameProcessing⟩)

private theorem Transition.publishedOwn (transition : Transition system event next)
    (coherent : Coherent system) (published : PublishedOwn system) : PublishedOwn next := by
  cases transition with
  | @mergePublished transaction message row scan merge phase returned =>
      have current : (system.callbacks transaction).row? = some (message, row) := by
        rw [phase]
        rfl
      have read := coherent.read_row current
      have out : MergeIsOut message.processingId
          { system with mergeMessages := system.mergeMessages ++ [merge] } :=
        ⟨merge, List.mem_append_right _ List.mem_cons_self,
          (publishMerge_ok returned).1.trans read.2.1⟩
      have logged : PublishedOwn
          { system with mergeMessages := system.mergeMessages ++ [merge] } :=
        fun other received copy current => (published other received copy current).append merge
      apply logged.setCallback transaction
      intro received copy same
      obtain ⟨rfl, rfl⟩ := CallbackPhase.published.inj same
      exact out
  | @reportCommitted transaction message row phase =>
      have stored : PublishedOwn
          { system with
            db := system.view message row
            reported := system.reported ++ [message] } := published
      exact stored.setCallback transaction (fun _ _ same => by cases same)
  | delivered idle sent => exact published.setCallback _ (fun _ _ same => by cases same)
  | missing phase absent => exact published.setCallback _ (fun _ _ same => by cases same)
  | loaded phase found => exact published.setCallback _ (fun _ _ same => by cases same)
  | flushed phase => exact published.setCallback _ (fun _ _ same => by cases same)
  | queried phase => exact published.setCallback _ (fun _ _ same => by cases same)
  | dropped cause => exact published.setCallback _ (fun _ _ same => by cases same)
  | _ => exact published

private theorem allDone_of_rows {db next : Database}
    (same : ofProcessing next processingId = ofProcessing db processingId) :
    allDone next processingId = allDone db processingId := by
  unfold allDone findDistinctStateByProcessingId
  rw [same]

private theorem not_allDone_of_insertion {db next : Database} {message : EchoStartMessage}
    {uuid : ℕ → String} {grid : Grid} (gridFor : GridFor message grid)
    (rows : next.workers.rows = db.workers.rows ++
      newWorkers message.processingId message.imageURL uuid grid) :
    allDone next message.processingId ≠ true := by
  intro complete
  have cells := map_cell_newWorkers message.processingId message.imageURL uuid grid
  obtain ⟨cell, cellMember⟩ := List.exists_mem_of_ne_nil _ gridFor.cells_ne_nil
  obtain ⟨row, member, _⟩ := List.mem_map.mp (cells ▸ cellMember)
  obtain ⟨own, initial⟩ := mem_newWorkers member
  have isDone := ((allDone_eq_true_iff _ _).mp complete).2 row
    ((mem_ofProcessing _ _ _).mpr ⟨rows ▸ List.mem_append_right _ member, own⟩)
  rw [initial] at isDone
  cases isDone

private theorem not_allDone_of_save {db : Database} {copy : EchoWorker} (copies : db.Copies copy)
    (saved : copy.state ≠ .done) : allDone (save db copy) copy.processingId ≠ true := by
  intro complete
  exact saved (((allDone_eq_true_iff _ _).mp complete).2 copy
    ((mem_ofProcessing _ _ _).mpr ⟨(mem_save_iff copies copy).mpr (Or.inr rfl), rfl⟩))

private theorem Transition.mergedWhenDone (transition : Transition system event next)
    (coherent : Coherent system) (published : PublishedOwn system)
    (merged : MergedWhenDone processingId system)
    (holds : AnswerStillHolds processingId system event) :
    MergedWhenDone processingId next := by
  cases transition with
  | @orchestratorCommitted handler message geoTransform database phase sameWorkers =>
      intro complete
      have same := ofProcessing_of_workers_eq sameWorkers processingId
      exact merged ((allDone_of_rows same).symm.trans complete)
  | @workersCommitted handler message database workers phase rows =>
      obtain ⟨uuid, grid, gridFor, rfl⟩ := coherent.open_start phase
      intro complete
      by_cases own : message.processingId = processingId
      · subst own
        exact absurd complete (not_allDone_of_insertion gridFor rows)
      · have same := ofProcessing_append_other rows
          (fun row member => (mem_newWorkers member).1 ▸ own)
        exact merged ((allDone_of_rows same).symm.trans complete)
  | @workerCommitted handler message totalWorkers worker rest phase =>
      have copies : system.db.Copies (started worker) :=
        (coherent.open_start phase).1.of_assignment_eq rfl
      intro complete
      by_cases own : worker.processingId = processingId
      · subst own
        exact absurd complete (not_allDone_of_save copies nofun)
      · have same := ofProcessing_save_of_ne copies own
        exact merged ((allDone_of_rows same).symm.trans complete)
  | @mergePublished transaction message row scan merge phase returned =>
      intro complete
      exact (merged complete).append merge
  | @reportCommitted transaction message row phase =>
      have current : (system.callbacks transaction).row? = some (message, row) := by
        rcases phase with queried | out
        · rw [queried]
          rfl
        · rw [out]
          rfl
      have read := coherent.read_row current
      intro complete
      by_cases own : message.processingId = processingId
      · subst own
        rcases phase with queried | out
        · have unmerged : (message, row) ∈ system.unmerged? (.commit transaction) := by
            change (system.callbacks transaction).unmerged? = some (message, row)
            rw [queried]
            rfl
          exact holds (message, row) unmerged rfl complete
        · exact published transaction message row out
      · have same := ofProcessing_save_of_ne read.1 (read.2.1.trans_ne own)
        exact merged ((allDone_of_rows same).symm.trans complete)
  | _ => exact merged

def DoneReported (system : System) : Prop :=
  ∀ row ∈ system.db.workers.rows, row.state = .done →
    ∃ callback ∈ system.reported, callback.workerId = row.workerId

private theorem Transition.doneReported (transition : Transition system event next)
    (coherent : Coherent system) (reported : DoneReported system) : DoneReported next := by
  cases transition with
  | @orchestratorCommitted handler message geoTransform database phase sameWorkers =>
      intro row member isDone
      exact reported row (by rwa [← sameWorkers]) isDone
  | @workersCommitted handler message database workers phase rows =>
      obtain ⟨uuid, grid, _, rfl⟩ := coherent.open_start phase
      intro row member isDone
      rcases List.mem_append.mp (rows ▸ member) with old | new
      · exact reported row old isDone
      · rw [(mem_newWorkers new).2] at isDone
        cases isDone
  | @workerCommitted handler message totalWorkers worker rest phase =>
      have copies : system.db.Copies (started worker) :=
        (coherent.open_start phase).1.of_assignment_eq rfl
      intro row member isDone
      rcases (mem_save_iff copies row).mp member with ⟨old, _⟩ | rfl
      · exact reported row old isDone
      · cases isDone
  | @reportCommitted transaction message row phase =>
      obtain ⟨_, copies, sameWorker⟩ := coherent.committable phase
      intro other member isDone
      rcases (mem_save_iff copies other).mp member with ⟨old, _⟩ | rfl
      · obtain ⟨callback, callbackMember, same⟩ := reported other old isDone
        exact ⟨callback, List.mem_append_left _ callbackMember, same⟩
      · exact ⟨message, List.mem_append_right _ List.mem_cons_self, sameWorker.symm⟩
  | _ => exact reported

theorem tile_of_done (coherent : Coherent system) (kept : Kept system)
    (reported : DoneReported system) {row : EchoWorker} (member : row ∈ system.db.workers.rows)
    (isDone : row.state = .done) :
    row.tileURL = some (Image.tileURL row.processingId row.workerId) := by
  obtain ⟨callback, callbackMember, same⟩ := reported row member isDone
  obtain ⟨current, found, _, tile⟩ := kept callback callbackMember
  have foundRow : findByWorkerId system.db callback.workerId = some row :=
    (findByWorkerId_eq_some_iff _ _ _).mpr ⟨member, same.symm⟩
  obtain rfl : current = row := Option.some.inj (found.symm.trans foundRow)
  rw [tile, (coherent.source_of_callback (coherent.reported callback callbackMember)
    (Database.copies_of_mem member) same.symm).2.2]

def CallbackPhase.merging? : CallbackPhase → Option (EchoWorkerCallbackMessage × EchoWorker)
  | .queried message row true => some (message, row)
  | _ => none

private theorem CallbackPhase.row?_of_merging? {phase : CallbackPhase}
    {report : EchoWorkerCallbackMessage × EchoWorker} (merging : phase.merging? = some report) :
    phase.row? = some report := by
  cases phase with
  | queried message row complete =>
      cases complete with
      | false => cases merging
      | true => exact merging
  | _ => cases merging

theorem GuardStillHolds.absent {handler : ℕ} {message : EchoStartMessage}
    {workers : List EchoWorker}
    (guards : GuardStillHolds processingId system (.commitWorkers handler))
    (phase : system.starts handler = .inserted message workers)
    (own : message.processingId = processingId) : ofProcessing system.db processingId = [] := by
  have inserting : message ∈ system.inserting? (.commitWorkers handler) := by
    change (system.starts handler).inserting? = some message
    rw [phase]
    rfl
  exact (existsByProcessingId_eq_false_iff _ _).mp (guards message inserting own)

/-- Where a transaction has found the workers of the processing done, the other rows are. -/
def OthersDone (processingId : String) (system : System) : Prop :=
  ∀ transaction message row, (system.callbacks transaction).merging? = some (message, row) →
    message.processingId = processingId →
      ∀ other ∈ ofProcessing system.db processingId, other.workerId ≠ row.workerId →
        other.state = .done

theorem OthersDone.setCallback (others : OthersDone processingId system) (transaction : ℕ)
    {phase : CallbackPhase}
    (own : ∀ message row, phase.merging? = some (message, row) →
      message.processingId = processingId →
        ∀ other ∈ ofProcessing system.db processingId, other.workerId ≠ row.workerId →
          other.state = .done) :
    OthersDone processingId (system.setCallback transaction phase) :=
  (Function.forall_update_iff system.callbacks
    (fun _ current => ∀ message row, current.merging? = some (message, row) →
      message.processingId = processingId →
        ∀ other ∈ ofProcessing system.db processingId, other.workerId ≠ row.workerId →
          other.state = .done)).mpr ⟨own, fun other _ => others other⟩

private theorem OthersDone.of_rows (others : OthersDone processingId system) {database : Database}
    (rows : ∀ other ∈ ofProcessing database processingId, other.state ≠ .done →
      ∃ row ∈ ofProcessing system.db processingId, row.workerId = other.workerId ∧
        row.state ≠ .done) :
    OthersDone processingId { system with db := database } := by
  intro transaction message row current own other member different
  by_contra open_
  obtain ⟨earlier, earlierMember, same, still⟩ := rows other member open_
  exact still (others transaction message row current own earlier earlierMember
    (same.trans_ne different))

private theorem Transition.othersDone (transition : Transition system event next)
    (coherent : Coherent system) (reported : DoneReported system)
    (before : CommitsBeforeReport system event)
    (guards : GuardStillHolds processingId system event)
    (others : OthersDone processingId system) : OthersDone processingId next := by
  cases transition with
  | @orchestratorCommitted handler message geoTransform database phase sameWorkers =>
      apply others.of_rows
      intro other member open_
      exact ⟨other, by rwa [← ofProcessing_of_workers_eq sameWorkers], rfl, open_⟩
  | @workersCommitted handler message database workers phase rows =>
      obtain ⟨uuid, grid, _, rfl⟩ := coherent.open_start phase
      by_cases own : message.processingId = processingId
      · -- The row of a transaction that has decided is one that the guard would have found.
        intro transaction received row merging same
        subst same
        exact absurd (guards.absent phase own)
          (coherent.present_of_read (CallbackPhase.row?_of_merging? merging))
      · have same := ofProcessing_append_other rows
          (fun row member => (mem_newWorkers member).1 ▸ own)
        apply others.of_rows
        intro other member open_
        exact ⟨other, by rwa [← same], rfl, open_⟩
  | @workerCommitted handler message totalWorkers worker rest phase =>
      have copies : system.db.Copies (started worker) :=
        (coherent.open_start phase).1.of_assignment_eq rfl
      have overwriting : worker ∈ system.overwriting? (.commitWorker handler) := by
        change (system.starts handler).unwritten? = some worker
        rw [phase]
        rfl
      apply others.of_rows
      intro other member open_
      rcases mem_ofProcessing_save copies member with ⟨old, _⟩ | rfl
      · exact ⟨other, old, rfl, open_⟩
      · obtain ⟨row, rowMember, sameWorker, sameProcessing⟩ := row_of_copies copies
        refine ⟨row, (mem_ofProcessing _ _ _).mpr ⟨rowMember, sameProcessing.trans
          ((mem_ofProcessing _ _ _).mp member).2⟩, sameWorker, ?_⟩
        intro isDone
        obtain ⟨callback, callbackMember, same⟩ := reported row rowMember isDone
        exact before worker overwriting callback callbackMember (same.trans sameWorker)
  | @reportCommitted transaction message row phase =>
      obtain ⟨_, copies, _⟩ := coherent.committable phase
      have stored : OthersDone processingId { system with db := system.view message row } := by
        apply others.of_rows
        intro other member open_
        rcases mem_ofProcessing_save copies member with ⟨old, _⟩ | rfl
        · exact ⟨other, old, rfl, open_⟩
        · exact absurd rfl open_
      have logged : OthersDone processingId
          { system with
            db := system.view message row
            reported := system.reported ++ [message] } := stored
      exact logged.setCallback transaction (fun _ _ same => by cases same)
  | @queried transaction message row phase =>
      have current : (system.callbacks transaction).row? = some (message, row) := by
        rw [phase]
        rfl
      have copies := (coherent.read_row current).1
      apply others.setCallback transaction
      intro received copy merging own other member different
      cases complete : allDone (system.view message row) message.processingId with
      | false =>
          rw [complete] at merging
          cases merging
      | true =>
          rw [complete] at merging
          obtain ⟨rfl, rfl⟩ := Prod.mk.inj (Option.some.inj merging)
          obtain ⟨otherMember, otherProcessing⟩ := (mem_ofProcessing _ _ _).mp member
          exact ((allDone_eq_true_iff _ _).mp complete).2 other ((mem_ofProcessing _ _ _).mpr
            ⟨(mem_save_iff copies other).mpr (Or.inl ⟨otherMember, different⟩),
              otherProcessing.trans own.symm⟩)
  | @mergePublished transaction message row scan merge phase returned =>
      have logged : OthersDone processingId
          { system with mergeMessages := system.mergeMessages ++ [merge] } := others
      exact logged.setCallback transaction (fun _ _ same => by cases same)
  | delivered idle sent => exact others.setCallback _ (fun _ _ same => by cases same)
  | missing phase absent => exact others.setCallback _ (fun _ _ same => by cases same)
  | loaded phase found => exact others.setCallback _ (fun _ _ same => by cases same)
  | flushed phase => exact others.setCallback _ (fun _ _ same => by cases same)
  | dropped cause => exact others.setCallback _ (fun _ _ same => by cases same)
  | _ => exact others

def MergesComplete (processingId : String) (system : System) : Prop :=
  ∀ merge ∈ system.mergeMessages, merge.processingId = processingId → Complete system.db merge

theorem MergesComplete.of_workerIds (merges : MergesComplete processingId system)
    {database : Database}
    (same : (ofProcessing database processingId).map EchoWorker.workerId =
      (ofProcessing system.db processingId).map EchoWorker.workerId) :
    MergesComplete processingId { system with db := database } := by
  intro merge member own
  subst own
  exact (merges merge member rfl).of_workerIds same

private theorem Transition.mergesComplete (transition : Transition system event next)
    (coherent : Coherent system) (kept : Kept system) (reported : DoneReported system)
    (others : OthersDone processingId system)
    (guards : GuardStillHolds processingId system event)
    (merges : MergesComplete processingId system) : MergesComplete processingId next := by
  cases transition with
  | @orchestratorCommitted handler message geoTransform database phase sameWorkers =>
      exact merges.of_workerIds
        (congrArg (List.map EchoWorker.workerId) (ofProcessing_of_workers_eq sameWorkers _))
  | @workersCommitted handler message database workers phase rows =>
      obtain ⟨uuid, grid, _, rfl⟩ := coherent.open_start phase
      by_cases own : message.processingId = processingId
      · intro merge member same
        subst same
        exact absurd (guards.absent phase own) (merges merge member rfl).1
      · have same := ofProcessing_append_other rows
          (fun row member => (mem_newWorkers member).1 ▸ own)
        exact merges.of_workerIds (congrArg (List.map EchoWorker.workerId) same)
  | @workerCommitted handler message totalWorkers worker rest phase =>
      have copies : system.db.Copies (started worker) :=
        (coherent.open_start phase).1.of_assignment_eq rfl
      exact merges.of_workerIds (map_ofProcessing_save copies _ _ workerId_of_assignment)
  | @reportCommitted transaction message row phase =>
      obtain ⟨_, copies, _⟩ := coherent.committable phase
      exact merges.of_workerIds (map_ofProcessing_save copies _ _ workerId_of_assignment)
  | @mergePublished transaction message row scan added phase returned =>
      intro merge member own
      rcases List.mem_append.mp member with earlier | new
      · exact merges merge earlier own
      · obtain rfl := List.mem_singleton.mp new
        subst own
        have current : (system.callbacks transaction).row? = some (message, row) := by
          rw [phase]
          rfl
        have merging : (system.callbacks transaction).merging? = some (message, row) := by
          rw [phase]
          rfl
        obtain ⟨copies, sameProcessing, tile⟩ := coherent.read_row current
        obtain ⟨ownProcessing, tiles⟩ := publishMerge_ok returned
        have same : merge.processingId = message.processingId :=
          ownProcessing.trans sameProcessing
        rw [← same] at tiles
        have viewed : Complete (system.view message row) merge := by
          constructor
          · apply (ofProcessing_save_eq_nil_iff copies merge.processingId).not.mpr
            exact same ▸ coherent.present_of_read current
          · apply mergedIn_of_tiles ?_ rfl tiles
            intro other otherMember
            rcases mem_ofProcessing_save copies otherMember with ⟨old, different⟩ | rfl
            · have isDone := others transaction message row merging same.symm other old different
              obtain ⟨oldMember, oldProcessing⟩ := (mem_ofProcessing _ _ _).mp old
              rw [tile_of_done coherent kept reported oldMember isDone, oldProcessing]
            · change some message.imageURL = some (Image.tileURL merge.processingId row.workerId)
              rw [tile, ownProcessing]
              rfl
        exact viewed.of_workerIds
          (map_ofProcessing_save copies _ _ workerId_of_assignment).symm
  | _ => exact merges

def StartPhase.remaining : StartPhase → List EchoWorker
  | .starting _ _ workers => workers
  | .saved _ _ worker rest => worker :: rest
  | .published _ _ worker rest => worker :: rest
  | _ => []

/-- Each row in INIT has its copy among those that the handler still has to start. -/
def Covers (db : Database) (processingId : String) (copies : List EchoWorker) : Prop :=
  ∀ row ∈ ofProcessing db processingId, row.state = .init →
    ∃ copy ∈ copies, copy.workerId = row.workerId ∧ copy.state = .init

/-- What is left in INIT is still to be started by each handler of the message that goes on,
and nothing is left once a handler has acknowledged it. -/
structure Remaining (message : EchoStartMessage) (system : System) : Prop where
  starts : ∀ handler, (system.starts handler).Created message →
    Covers system.db message.processingId (system.starts handler).remaining
  acknowledged : message ∈ system.acknowledged → Covers system.db message.processingId []

variable {message : EchoStartMessage}

theorem Remaining.setStart (remaining : Remaining message system) (handler : ℕ)
    {phase : StartPhase}
    (own : phase.Created message → Covers system.db message.processingId phase.remaining) :
    Remaining message (system.setStart handler phase) :=
  { starts := (Function.forall_update_iff system.starts
      (fun _ current => current.Created message →
        Covers system.db message.processingId current.remaining)).mpr
      ⟨own, fun other _ => remaining.starts other⟩
    acknowledged := remaining.acknowledged }

theorem Remaining.setDatabase (remaining : Remaining message system) {database : Database}
    (rows : ∀ row ∈ ofProcessing database message.processingId, row.state = .init →
      row ∈ ofProcessing system.db message.processingId) :
    Remaining message { system with db := database } :=
  { starts := fun handler created row member initial =>
      remaining.starts handler created row (rows row member initial) initial
    acknowledged := fun acknowledged row member initial =>
      remaining.acknowledged acknowledged row (rows row member initial) initial }

private theorem not_init_of_skipped {handler : ℕ} {strategy : ErrorStrategy}
    {received : EchoStartMessage} {totalWorkers : ℤ} {worker : EchoWorker}
    {rest : List EchoWorker}
    (phase : system.starts handler = .starting received totalWorkers (worker :: rest))
    (stepped : sessions.step system (.saveWorker handler strategy) =
      some (system.setStart handler (.starting received totalWorkers rest))) :
    worker.state ≠ .init := by
  intro initial
  have phaseOf : ∀ {left right : StartPhase},
      some (system.setStart handler left) = some (system.setStart handler right) →
        left = right := by
    intro left right same
    have phases := congrArg (fun next => next.starts handler) (Option.some.inj same)
    change Function.update system.starts handler left handler =
      Function.update system.starts handler right handler at phases
    rwa [Function.update_self, Function.update_self] at phases
  change system.saveWorker handler strategy = _ at stepped
  unfold System.saveWorker at stepped
  rw [phase] at stepped
  dsimp only at stepped
  rw [if_pos initial] at stepped
  split at stepped
  · cases phaseOf stepped
  · cases phaseOf stepped

theorem Remaining.save (remaining : Remaining message system) {copy : EchoWorker}
    (copies : system.db.Copies copy) (saved : copy.state ≠ .init) :
    Remaining message { system with db := save system.db copy } := by
  apply remaining.setDatabase
  intro row member initial
  rcases mem_ofProcessing_save copies member with ⟨old, _⟩ | rfl
  · exact old
  · exact absurd initial saved

theorem Covers.tail {db : Database} {worker : EchoWorker} {rest : List EchoWorker}
    (covers : Covers db processingId (worker :: rest))
    (passed : ∀ row ∈ ofProcessing db processingId, row.state = .init →
      worker.workerId = row.workerId → worker.state ≠ .init) : Covers db processingId rest := by
  intro row member initial
  obtain ⟨copy, copyMember, same, copyInitial⟩ := covers row member initial
  rcases List.mem_cons.mp copyMember with rfl | inRest
  · exact absurd copyInitial (passed row member initial same)
  · exact ⟨copy, inRest, same, copyInitial⟩

theorem Transition.remaining (transition : Transition system event next)
    (stepped : sessions.step system event = some next) (guarded : Guarded message system)
    (oneSet : OneSet message system) (guards : GuardStillHolds message.processingId system event)
    (remaining : Remaining message system) : Remaining message next := by
  have coherent := guarded.coherent
  cases transition with
  | @orchestratorCommitted handler received geoTransform database phase sameWorkers =>
      have same := ofProcessing_of_workers_eq sameWorkers message.processingId
      exact (remaining.setDatabase (fun row member _ => same ▸ member)).setStart handler False.elim
  | @workersRead handler received grid scan phase =>
      apply remaining.setStart handler
      rintro rfl
      intro row member initial
      exact ⟨row, (scan.mem_order _ _).mpr member, rfl, initial⟩
  | @workersCommitted handler received database workers phase rows =>
      obtain ⟨uuid, grid, _, rfl⟩ := coherent.open_start phase
      by_cases own : received.processingId = message.processingId
      · obtain rfl : received = message :=
          guarded.sameMessage handler received (by rw [phase]; rfl) own
        have absent := guards.absent phase rfl
        rcases oneSet with grid | ⟨_, open_, none⟩
        · exact absurd absent grid.ne_nil
        · refine
            { starts := (Function.forall_update_iff system.starts
                (fun _ current => current.Created received →
                  Covers database received.processingId current.remaining)).mpr
                ⟨fun _ row member initial => ?_, fun other _ created =>
                  absurd created (none other)⟩
              acknowledged := fun acknowledged => absurd acknowledged open_ }
          rw [ofProcessing_append rows (fun row member => (mem_newWorkers member).1), absent,
            List.nil_append] at member
          exact ⟨row, member, rfl, initial⟩
      · have same := ofProcessing_append_other rows
          (fun row member => (mem_newWorkers member).1 ▸ own)
        apply (remaining.setDatabase (fun row member _ => same ▸ member)).setStart handler
        rintro rfl
        exact absurd rfl own
  | @skipped handler strategy received totalWorkers worker rest phase =>
      apply remaining.setStart handler
      rintro rfl
      have covers := remaining.starts handler (by rw [phase]; rfl)
      rw [phase] at covers
      exact covers.tail (fun _ _ _ _ => not_init_of_skipped phase stepped)
  | @saved handler strategy received totalWorkers worker rest phase =>
      apply remaining.setStart handler
      rintro rfl
      have covers := remaining.starts handler (by rw [phase]; rfl)
      rw [phase] at covers
      exact covers
  | @workerPublished handler received totalWorkers worker rest phase =>
      have published : Remaining message { system with
          workerMessages := system.workerMessages ++ [workerMessage worker totalWorkers] } :=
        { starts := remaining.starts
          acknowledged := remaining.acknowledged }
      apply published.setStart handler
      rintro rfl
      have covers := remaining.starts handler (by rw [phase]; rfl)
      rw [phase] at covers
      exact covers
  | @workerCommitted handler received totalWorkers worker rest phase =>
      have copies : system.db.Copies (started worker) :=
        (coherent.open_start phase).1.of_assignment_eq rfl
      have stored := remaining.save copies nofun
      apply stored.setStart handler
      rintro rfl
      have created : (system.starts handler).Created received := by
        rw [phase]
        rfl
      have covers : Covers _ _ (system.starts handler).remaining := stored.starts handler created
      rw [phase] at covers
      apply covers.tail
      intro row member initial same
      rcases mem_ofProcessing_save copies member with ⟨_, different⟩ | rfl
      · exact absurd same.symm different
      · cases initial
  | @acknowledged handler received totalWorkers phase =>
      have logged : Remaining message { system with
          acknowledged := system.acknowledged ++ [received] } := by
        refine
          { starts := remaining.starts
            acknowledged := ?_ }
        intro acknowledged
        rcases List.mem_append.mp acknowledged with earlier | own
        · exact remaining.acknowledged earlier
        · obtain rfl := List.mem_singleton.mp own
          have covers := remaining.starts handler (by rw [phase]; rfl)
          rw [phase] at covers
          exact covers
      exact logged.setStart handler False.elim
  | @reportCommitted transaction received row phase =>
      have stored := remaining.save (coherent.committable phase).2.1 nofun
      exact
        { starts := stored.starts
          acknowledged := stored.acknowledged }
  | receive idle => exact remaining.setStart _ False.elim
  | giveUp handler => exact remaining.setStart _ False.elim
  | searched phase transform present => exact remaining.setStart _ False.elim
  | orchestratorFound phase => exact remaining.setStart _ False.elim
  | guarded phase gridEq => exact remaining.setStart _ False.elim
  | inserted phase => exact remaining.setStart _ False.elim
  | _ =>
      exact
        { starts := remaining.starts
          acknowledged := remaining.acknowledged }

/-- The step is none of the three races for the processing. -/
structure NoRace (processingId : String) (system : System) (event : Event) : Prop where
  guard : GuardStillHolds processingId system event
  copy : CommitsBeforeReport system event
  answer : AnswerStillHolds processingId system event

instance (processingId : String) (system : System) (event : Event) :
    Decidable (NoRace processingId system event) :=
  decidable_of_iff
    (GuardStillHolds processingId system event ∧ CommitsBeforeReport system event ∧
      AnswerStillHolds processingId system event)
    ⟨fun parts => ⟨parts.1, parts.2.1, parts.2.2⟩, fun facts => ⟨facts.1, facts.2, facts.3⟩⟩

structure Orderly (message : EchoStartMessage) (system : System) : Prop where
  guarded : Guarded message system
  oneSet : OneSet message system
  announced : Announced system
  kept : Kept system
  reported : DoneReported system
  others : OthersDone message.processingId system
  merges : MergesComplete message.processingId system
  published : PublishedOwn system
  merged : MergedWhenDone message.processingId system
  remaining : Remaining message system

theorem orderly_initial (message : EchoStartMessage) :
    Orderly message (System.initial Database.empty) :=
  { guarded :=
      { coherent := coherent_initial Database.empty
        sameMessage := fun _ _ current => by cases current
        present := fun _ _ _ current => by cases current }
    oneSet := Or.inr ⟨rfl, List.not_mem_nil, fun _ => id⟩
    announced :=
      { pending := fun _ _ current => by cases current
        rows := fun _ member => by cases member }
    kept := fun _ member => by cases member
    reported := fun _ member => by cases member
    others := fun _ _ _ current => by cases current
    merges := fun _ member => by cases member
    published := fun _ _ _ current => by cases current
    merged := fun complete => absurd rfl ((allDone_eq_true_iff _ _).mp complete).1
    remaining :=
      { starts := fun _ created => created.elim
        acknowledged := fun member => by cases member } }

theorem Orderly.step (orderly : Orderly message system)
    (oneMessage : OneMessage message system event)
    (noRace : NoRace message.processingId system event)
    (stepped : sessions.step system event = some next) : Orderly message next := by
  have transition := step_transition stepped
  have coherent := orderly.guarded.coherent
  exact
    { guarded := guarded_step orderly.guarded oneMessage stepped
      oneSet := transition.oneSet orderly.guarded noRace.guard orderly.oneSet
      announced := transition.announced coherent orderly.announced
      kept := transition.kept coherent orderly.kept noRace.copy
      reported := transition.doneReported coherent orderly.reported
      others := transition.othersDone coherent orderly.reported noRace.copy noRace.guard
        orderly.others
      merges := transition.mergesComplete coherent orderly.kept orderly.reported orderly.others
        noRace.guard orderly.merges
      published := transition.publishedOwn coherent orderly.published
      merged := transition.mergedWhenDone coherent orderly.published orderly.merged noRace.answer
      remaining := transition.remaining stepped orderly.guarded orderly.oneSet noRace.guard
        orderly.remaining }

theorem Orderly.allDone (orderly : Orderly message system)
    (acknowledged : message ∈ system.acknowledged)
    (consumed : ∀ source ∈ system.workerMessages, source.processingId = message.processingId →
      ∃ callback ∈ system.reported, callback.workerId = source.workerId) :
    allDone system.db message.processingId = true := by
  have grid : MatchesGrid message system.db := by
    rcases orderly.oneSet with grid | ⟨_, open_, _⟩
    · exact grid
    · exact absurd acknowledged open_
  apply (allDone_eq_true_iff _ _).mpr
  refine ⟨grid.ne_nil, ?_⟩
  intro row member
  have notProcessing := orderly.kept.ne_processing orderly.announced consumed member
  cases state : row.state with
  | init =>
      obtain ⟨copy, copyMember, _⟩ :=
        orderly.remaining.acknowledged acknowledged row member state
      cases copyMember
  | processing => exact absurd state notProcessing
  | done => rfl

namespace Sample

open Orchestrator.Sample (twoTiles twoIds leftMessage rightMessage)

def redelivered : List Event :=
  [.receive 0 twoTiles, .findOrchestrator 0, .commitOrchestrator 0, .existsWorkers 0,
    .insertWorkers 0 .none twoIds, .commitWorkers 0, .saveWorker 0 .none,
    .publishWorker 0, .commitWorker 0, .work leftMessage,
    .deliver 0 leftMessage.callback, .read 0, .write 0, .query 0, .saveWorker 0 .none,
    .publishWorker 0, .commit 0, .commitWorker 0, .work rightMessage, .receive 1 twoTiles,
    .findOrchestrator 1, .deliver 1 rightMessage.callback, .commitOrchestrator 1,
    .existsWorkers 1, .read 1, .findWorkers 1 .insertionOrder, .write 1, .query 1,
    .saveWorker 1 .none, .saveWorker 1 .none, .publish 1 .insertionOrder, .acknowledge 1,
    .commit 1, .acknowledge 0]

end Sample

end EchoProcessing.Orchestrator.Sessions
