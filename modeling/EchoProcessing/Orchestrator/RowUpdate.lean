/-
What the transactional methods do to the rows.

Every save writes back a copy of some row with another state and tile. All other
columns make up the assignment of the row, which is written once by the insertion.
The specifications of the methods follow; callers do not unfold the methods.
-/

import EchoProcessing.Image.Url
import EchoProcessing.Orchestrator.Services

namespace EchoProcessing.Orchestrator

open EchoWorkerRepository EchoWorkerService

/-- The columns that only the insertion writes, as a row with blank state and tile. -/
def EchoWorker.assignment (row : EchoWorker) : EchoWorker :=
  { row with state := .init, tileURL := none }

theorem workerId_of_assignment {left right : EchoWorker}
    (same : left.assignment = right.assignment) : left.workerId = right.workerId := by
  have column := congrArg EchoWorker.workerId same
  exact column

theorem processingId_of_assignment {left right : EchoWorker}
    (same : left.assignment = right.assignment) : left.processingId = right.processingId := by
  have column := congrArg EchoWorker.processingId same
  exact column

/-- The value is a copy, possibly stale, of a committed row. -/
def Database.Copies (db : Database) (copy : EchoWorker) : Prop :=
  ∃ row ∈ db.workers.rows, row.assignment = copy.assignment

def overwrite (copy row : EchoWorker) : EchoWorker :=
  if row.workerId = copy.workerId then copy else row

private theorem overwrite_of_eq {copy row : EchoWorker} (same : row.workerId = copy.workerId) :
    overwrite copy row = copy := if_pos same

theorem overwrite_of_ne {copy row : EchoWorker} (different : row.workerId ≠ copy.workerId) :
    overwrite copy row = row := if_neg different

theorem Database.Copies.assignment_eq {db : Database} {copy row : EchoWorker}
    (copies : db.Copies copy) (member : row ∈ db.workers.rows)
    (same : row.workerId = copy.workerId) : row.assignment = copy.assignment := by
  obtain ⟨source, sourceMember, sourceEq⟩ := copies
  have sameRow : row = source := db.workers.eq_of_key_eq member sourceMember
    (same.trans (workerId_of_assignment sourceEq).symm)
  rw [sameRow, sourceEq]

theorem Database.Copies.of_assignment_eq {db : Database} {copy other : EchoWorker}
    (copies : db.Copies copy) (same : copy.assignment = other.assignment) : db.Copies other := by
  obtain ⟨row, member, rowEq⟩ := copies
  exact ⟨row, member, rowEq.trans same⟩

theorem Database.Copies.assignment_overwrite {db : Database} {copy row : EchoWorker}
    (copies : db.Copies copy) (member : row ∈ db.workers.rows) :
    (overwrite copy row).assignment = row.assignment := by
  by_cases same : row.workerId = copy.workerId
  · rw [overwrite_of_eq same, copies.assignment_eq member same]
  · rw [overwrite_of_ne same]

theorem Database.copies_of_mem {db : Database} {row : EchoWorker}
    (member : row ∈ db.workers.rows) : db.Copies row :=
  ⟨row, member, rfl⟩

theorem row_of_copies {db : Database} {copy : EchoWorker} (copies : db.Copies copy) :
    ∃ row ∈ db.workers.rows, row.workerId = copy.workerId ∧
      row.processingId = copy.processingId := by
  obtain ⟨row, member, same⟩ := copies
  exact ⟨row, member, workerId_of_assignment same, processingId_of_assignment same⟩

theorem nodup_workerIds (db : Database) (processingId : String) :
    ((ofProcessing db processingId).map EchoWorker.workerId).Nodup :=
  List.Nodup.sublist (List.Sublist.map _ List.filter_sublist) db.workers.unique

section Save

variable {db : Database} {copy : EchoWorker}

theorem workers_save (copies : db.Copies copy) :
    (save db copy).workers = db.workers.replace copy := by
  obtain ⟨row, member, same⟩ := copies
  exact db.workers.save_of_mem member (workerId_of_assignment same)

private theorem rows_save (copies : db.Copies copy) :
    (save db copy).workers.rows = db.workers.rows.map (overwrite copy) := by
  rw [workers_save copies, KeyedTable.rows_replace]
  rfl

private theorem assignments_save (copies : db.Copies copy) :
    (save db copy).workers.rows.map EchoWorker.assignment =
      db.workers.rows.map EchoWorker.assignment := by
  rw [workers_save copies]
  apply KeyedTable.map_rows_replace
  intro row member same
  exact (copies.assignment_eq member same).symm

theorem mem_save_iff (copies : db.Copies copy) (row : EchoWorker) :
    row ∈ (save db copy).workers.rows ↔
      (row ∈ db.workers.rows ∧ row.workerId ≠ copy.workerId) ∨ row = copy := by
  rw [workers_save copies, KeyedTable.mem_replace_iff]
  obtain ⟨source, member, same⟩ := copies
  constructor
  · rintro (old | ⟨new, _⟩)
    · exact Or.inl old
    · exact Or.inr new
  · rintro (old | new)
    · exact Or.inl old
    · exact Or.inr ⟨new, source, member, workerId_of_assignment same⟩

theorem copies_save_iff (copies : db.Copies copy) (other : EchoWorker) :
    (save db copy).Copies other ↔ db.Copies other := by
  have membership : ∀ database : Database, database.Copies other ↔
      other.assignment ∈ database.workers.rows.map EchoWorker.assignment := by
    intro database
    exact List.mem_map.symm
  rw [membership, membership, assignments_save copies]

theorem ofProcessing_save (copies : db.Copies copy) (processingId : String) :
    ofProcessing (save db copy) processingId =
      (ofProcessing db processingId).map (overwrite copy) := by
  unfold ofProcessing
  rw [rows_save copies, List.filter_map]
  congr 1
  apply List.filter_congr
  intro row member
  have same := processingId_of_assignment (copies.assignment_overwrite member)
  simp only [Function.comp_apply, same]

theorem length_ofProcessing_save {db : Database} {copy : EchoWorker} (copies : db.Copies copy)
    (processingId : String) :
    (ofProcessing (save db copy) processingId).length = (ofProcessing db processingId).length := by
  rw [ofProcessing_save copies, List.length_map]

theorem ofProcessing_save_eq_nil_iff (copies : db.Copies copy) (processingId : String) :
    ofProcessing (save db copy) processingId = [] ↔ ofProcessing db processingId = [] := by
  rw [ofProcessing_save copies, List.map_eq_nil_iff]

theorem mem_ofProcessing_save {db : Database} {copy row : EchoWorker} (copies : db.Copies copy)
    {processingId : String} (member : row ∈ ofProcessing (save db copy) processingId) :
    (row ∈ ofProcessing db processingId ∧ row.workerId ≠ copy.workerId) ∨ row = copy := by
  obtain ⟨rowMember, rowProcessing⟩ := (mem_ofProcessing _ _ _).mp member
  rcases (mem_save_iff copies row).mp rowMember with ⟨old, different⟩ | same
  · exact Or.inl ⟨(mem_ofProcessing _ _ _).mpr ⟨old, rowProcessing⟩, different⟩
  · exact Or.inr same

theorem map_ofProcessing_save {α : Type*} (copies : db.Copies copy) (processingId : String)
    (column : EchoWorker → α)
    (assigned : ∀ {left right : EchoWorker}, left.assignment = right.assignment →
      column left = column right) :
    (ofProcessing (save db copy) processingId).map column =
      (ofProcessing db processingId).map column := by
  rw [ofProcessing_save copies, List.map_map]
  apply List.map_congr_left
  intro row member
  exact assigned (copies.assignment_overwrite ((mem_ofProcessing _ _ _).mp member).1)

theorem ofProcessing_save_of_ne (copies : db.Copies copy)
    {processingId : String} (other : copy.processingId ≠ processingId) :
    ofProcessing (save db copy) processingId = ofProcessing db processingId := by
  rw [ofProcessing_save copies]
  conv_rhs => rw [← List.map_id (ofProcessing db processingId)]
  apply List.map_congr_left
  intro row member
  apply overwrite_of_ne
  intro same
  obtain ⟨rowMember, rowProcessing⟩ := (mem_ofProcessing _ _ _).mp member
  apply other
  rw [← rowProcessing, processingId_of_assignment (copies.assignment_eq rowMember same)]

theorem findByWorkerId_save (copies : db.Copies copy) (workerId : String) :
    findByWorkerId (save db copy) workerId =
      if workerId = copy.workerId then some copy else findByWorkerId db workerId := by
  unfold findByWorkerId
  rw [workers_save copies, KeyedTable.find?_replace]
  obtain ⟨row, member, same⟩ := copies
  by_cases wanted : workerId = copy.workerId
  · have found : db.workers.find? workerId = some row :=
      (db.workers.find?_eq_some_iff workerId row).mpr
        ⟨member, (workerId_of_assignment same).trans wanted.symm⟩
    rw [if_pos wanted, if_pos wanted, found, Option.map_some]
  · rw [if_neg wanted, if_neg wanted]

end Save

theorem ofProcessing_of_workers_eq {db next : Database} (same : next.workers = db.workers)
    (processingId : String) : ofProcessing next processingId = ofProcessing db processingId := by
  unfold ofProcessing
  rw [same]

theorem ofProcessing_append {db next : Database} {workers : List EchoWorker}
    {processingId : String} (rows : next.workers.rows = db.workers.rows ++ workers)
    (own : ∀ row ∈ workers, row.processingId = processingId) :
    ofProcessing next processingId = ofProcessing db processingId ++ workers := by
  unfold ofProcessing
  rw [rows, List.filter_append]
  congr 1
  rw [List.filter_eq_self]
  intro row member
  exact decide_eq_true (own row member)

theorem ofProcessing_append_ne_nil {db next : Database} {workers : List EchoWorker}
    {processingId : String} (rows : next.workers.rows = db.workers.rows ++ workers)
    (present : ofProcessing db processingId ≠ []) : ofProcessing next processingId ≠ [] := by
  obtain ⟨row, member⟩ := List.exists_mem_of_ne_nil _ present
  obtain ⟨rowMember, rowProcessing⟩ := (mem_ofProcessing _ _ _).mp member
  exact List.ne_nil_of_mem ((mem_ofProcessing _ _ _).mpr
    ⟨rows ▸ List.mem_append_left _ rowMember, rowProcessing⟩)

theorem ofProcessing_append_other {db next : Database} {workers : List EchoWorker}
    {processingId : String} (rows : next.workers.rows = db.workers.rows ++ workers)
    (other : ∀ row ∈ workers, row.processingId ≠ processingId) :
    ofProcessing next processingId = ofProcessing db processingId := by
  unfold ofProcessing
  rw [rows, List.filter_append]
  have none : workers.filter (fun row => row.processingId = processingId) = [] := by
    rw [List.filter_eq_nil_iff]
    intro row member
    simpa using other row member
  rw [none, List.append_nil]

theorem mem_newWorkers {processingId imageURL : String} {uuid : ℕ → String} {grid : Grid}
    {row : EchoWorker} (member : row ∈ newWorkers processingId imageURL uuid grid) :
    row.processingId = processingId ∧ row.state = .init := by
  rw [newWorkers, List.mem_mapIdx] at member
  obtain ⟨index, bound, rfl⟩ := member
  exact ⟨rfl, rfl⟩

theorem createOrchestrator_ok {db next : Database} {processingId imageUrl : String}
    {imageSizeX imageSizeY : ℤ} {geoTransform : GeoTransform}
    (returned : EchoOrchestratorService.createOrchestrator db processingId imageUrl imageSizeX
      imageSizeY geoTransform = .ok next) :
    next.workers = db.workers ∧
      ((next = db ∧
          ∃ row, EchoOrchestratorRepository.findByProcessingId db processingId = some row) ∨
        (EchoOrchestratorRepository.findByProcessingId db processingId = none ∧
          (FitsColumn processingId ∧ FitsColumn imageUrl) ∧
          ∃ row : EchoOrchestrator, row.processingId = processingId ∧
            next.orchestrators.rows = db.orchestrators.rows ++ [row])) := by
  unfold EchoOrchestratorService.createOrchestrator at returned
  split at returned
  · rename_i row found
    cases returned
    exact ⟨rfl, Or.inl ⟨rfl, row, found⟩⟩
  · rename_i missing
    obtain ⟨fits, sameWorkers, rows⟩ :=
      (EchoOrchestratorRepository.save_eq_ok_iff _ _ _).mp returned
    exact ⟨sameWorkers, Or.inr ⟨missing, fits, _, rfl, rows⟩⟩

/-- Either the rows were there and are read back, or one set of rows is inserted. -/
theorem createWorkers_ok {strategy : ErrorStrategy} {uuid : ℕ → String} {scan : Scan}
    {db next : Database} {processingId imageURL : String} {grid : Grid}
    {workers : List EchoWorker}
    (returned : createWorkers strategy uuid scan db processingId imageURL grid =
      .ok (workers, next)) :
    (ofProcessing db processingId ≠ [] ∧ next = db ∧
        workers = findByProcessingId scan db processingId) ∨
      (ofProcessing db processingId = [] ∧
        workers = newWorkers processingId imageURL uuid grid ∧
        next.orchestrators = db.orchestrators ∧
        next.workers.rows = db.workers.rows ++ workers) := by
  unfold createWorkers at returned
  split at returned
  · rename_i present
    cases returned
    exact Or.inl ⟨(existsByProcessingId_eq_true_iff _ _).mp present, rfl, rfl⟩
  · rename_i absent
    right
    refine ⟨(existsByProcessingId_eq_false_iff _ _).mp (Bool.not_eq_true _ ▸ absent), ?_⟩
    cases saved : saveAll db (newWorkers processingId imageURL uuid grid) with
    | error failure =>
        rw [saved] at returned
        cases returned
    | ok inserted =>
        rw [saved] at returned
        cases checked : applyErrorStrategy strategy .afterInitWorkersInDatabase with
        | error failure =>
            rw [checked] at returned
            cases returned
        | ok _ =>
            rw [checked] at returned
            cases returned
            obtain ⟨sameOrchestrators, rows⟩ := (saveAll_eq_ok_iff _ _ _).mp saved
            exact ⟨rfl, sameOrchestrators, rows⟩

theorem startEchoWorker_ok {strategy : ErrorStrategy} {db next : Database}
    {echoWorker : EchoWorker} {totalWorkers : ℤ} {published : Option EchoWorkerMessage}
    (returned : startEchoWorker strategy db echoWorker totalWorkers = .ok (next, published)) :
    (echoWorker.state ≠ .init ∧ next = db ∧ published = none) ∨
      (echoWorker.state = .init ∧ next = save db (started echoWorker) ∧
        published = some (workerMessage echoWorker totalWorkers)) := by
  unfold startEchoWorker at returned
  split at returned
  · rename_i initial
    right
    cases checked : applyErrorStrategy strategy .afterProcessingWorkerInDatabase with
    | error failure =>
        rw [checked] at returned
        cases returned
    | ok _ =>
        rw [checked] at returned
        cases returned
        exact ⟨initial, rfl, rfl⟩
  · rename_i notInitial
    cases returned
    exact Or.inl ⟨notInitial, rfl, rfl⟩

theorem allDone_eq_true_iff (db : Database) (processingId : String) :
    allDone db processingId = true ↔
      ofProcessing db processingId ≠ [] ∧
        ∀ row ∈ ofProcessing db processingId, row.state = .done := by
  rw [← states_are_done_iff]
  simp only [allDone, decide_eq_true_eq]

theorem publishMerge_ok {scan : Scan} {db : Database} {processingId : String}
    {echoWorker : EchoWorker} {message : EchoMergeMessage}
    (returned : publishMerge scan db processingId echoWorker = .ok message) :
    message.processingId = echoWorker.processingId ∧
      message.tileURLs = (scan.order (ofProcessing db processingId)).map EchoWorker.tileURL := by
  unfold publishMerge at returned
  split at returned
  · cases returned
  · cases returned
    exact ⟨rfl, rfl⟩

/-- The outcome of a callback whose row exists. The merge test reads the database in
which the transaction's own row is already done. -/
theorem callbackEchoWorker_of_found (scan : Scan) {db : Database} (processingId : String)
    {workerId : String} (tileURL : String) {row : EchoWorker}
    (found : findByWorkerId db workerId = some row) :
    callbackEchoWorker scan db processingId workerId tileURL =
      if allDone (save db (finished row tileURL)) processingId then do
        let message ← publishMerge scan (save db (finished row tileURL)) processingId
          (finished row tileURL)
        return (save db (finished row tileURL), some message)
      else .ok (save db (finished row tileURL), none) := by
  unfold callbackEchoWorker
  rw [found]

theorem callbackEchoWorker_ok {scan : Scan} {db next : Database}
    {processingId workerId tileURL : String} {published : Option EchoMergeMessage}
    (returned : callbackEchoWorker scan db processingId workerId tileURL = .ok (next, published)) :
    (findByWorkerId db workerId = none ∧ next = db ∧ published = none) ∨
      ∃ row, findByWorkerId db workerId = some row ∧ next = save db (finished row tileURL) ∧
        ((allDone next processingId = false ∧ published = none) ∨
          (allDone next processingId = true ∧ ∃ message, published = some message ∧
            publishMerge scan next processingId (finished row tileURL) = .ok message)) := by
  cases found : findByWorkerId db workerId with
  | none =>
      unfold callbackEchoWorker at returned
      rw [found] at returned
      cases returned
      exact Or.inl ⟨rfl, rfl, rfl⟩
  | some row =>
      right
      rw [callbackEchoWorker_of_found scan processingId tileURL found] at returned
      split at returned
      · rename_i complete
        cases merged : publishMerge scan (save db (finished row tileURL)) processingId
            (finished row tileURL) with
        | error failure =>
            rw [merged] at returned
            cases returned
        | ok message =>
            rw [merged] at returned
            cases returned
            exact ⟨row, rfl, rfl, Or.inr ⟨complete, message, rfl, merged⟩⟩
      · rename_i incomplete
        cases returned
        exact ⟨row, rfl, rfl, Or.inl ⟨Bool.eq_false_iff.mpr incomplete, rfl⟩⟩

end EchoProcessing.Orchestrator
