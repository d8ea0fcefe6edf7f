/-
The rows, messages and repositories of the echo orchestrator.

The fields of a row are those of the mapped superclasses of its entity, laid flat.
The surrogate key is left out: no row is ever deleted and a worker id never
changes, so the unique index on it identifies the row that a save overwrites.
A worker row repeats the texts of the orchestrator row that was inserted before it, and
its own are a UUID and the name of a tile, so only the insertion of the orchestrator row
tests the length of its texts.
-/

import EchoProcessing.Geo.Service
import EchoProcessing.Library.KeyedTable
import Mathlib.Data.Finset.Card
import Mathlib.Data.Finset.Image

namespace EchoProcessing.Orchestrator

/-- No column of the entities is given a length, so a text is a `varchar(255)`; and the
database has no text with the null character. -/
def FitsColumn (text : String) : Prop :=
  text.length ≤ 255 ∧ Char.ofNat 0 ∉ text.toList

instance (text : String) : Decidable (FitsColumn text) :=
  inferInstanceAs (Decidable (_ ∧ _))

inductive Worker.State where
  | init
  | processing
  | done
deriving DecidableEq, Repr

structure EchoWorker where
  processingId : String
  workerId : String
  state : Worker.State
  imageURL : String
  tileSizeX : ℤ
  tileSizeY : ℤ
  geoTransform : GeoTransform
  tileURL : Option String
deriving DecidableEq, Repr

structure EchoOrchestrator where
  processingId : String
  imageURL : String
  imageSizeX : ℤ
  imageSizeY : ℤ
  geoTransform : GeoTransform
deriving DecidableEq, Repr

structure EchoStartMessage where
  processingId : String
  imageURL : String
  imageSizeX : ℤ
  imageSizeY : ℤ
  aoi : Aoi
deriving DecidableEq, Repr

/-- The texts of the message that become columns. -/
structure EchoStartMessage.TextsFit (message : EchoStartMessage) : Prop where
  processingId : FitsColumn message.processingId
  imageURL : FitsColumn message.imageURL

instance (message : EchoStartMessage) : Decidable message.TextsFit :=
  decidable_of_iff (FitsColumn message.processingId ∧ FitsColumn message.imageURL)
    ⟨fun fits => ⟨fits.1, fits.2⟩, fun fits => ⟨fits.processingId, fits.imageURL⟩⟩

structure EchoWorkerMessage where
  processingId : String
  workerId : String
  imageURL : String
  tileSizeX : ℤ
  tileSizeY : ℤ
  geoTransform : GeoTransform
  trackerTotalWorkers : ℤ
deriving DecidableEq, Repr

/-- The total is a boxed number: the worker takes it from a context that starts without one. -/
structure EchoWorkerCallbackMessage where
  processingId : String
  workerId : String
  imageURL : String
  trackerTotalWorkers : Option ℤ
deriving DecidableEq, Repr

structure EchoMergeMessage where
  processingId : String
  tileURLs : List (Option String)
  imageSizeX : ℤ
  imageSizeY : ℤ
  geoTransform : GeoTransform
deriving DecidableEq, Repr

/-- Both unique indexes are fields of the tables: `processingId` of an orchestrator
row and `workerId` of a worker row. -/
structure Database where
  orchestrators : KeyedTable EchoOrchestrator.processingId
  workers : KeyedTable EchoWorker.workerId

def Database.empty : Database :=
  { orchestrators := KeyedTable.empty, workers := KeyedTable.empty }

/-- The order in which a query without `order by` happens to return its rows. -/
structure Scan where
  order : List EchoWorker → List EchoWorker
  perm : ∀ rows, (order rows).Perm rows

def Scan.insertionOrder : Scan :=
  { order := id, perm := List.Perm.refl }

theorem Scan.mem_order (scan : Scan) (rows : List EchoWorker) (row : EchoWorker) :
    row ∈ scan.order rows ↔ row ∈ rows :=
  (scan.perm rows).mem_iff

namespace EchoOrchestratorRepository

def findByProcessingId (db : Database) (processingId : String) : Option EchoOrchestrator :=
  db.orchestrators.find? processingId

def save (db : Database) (row : EchoOrchestrator) : Except Failure Database :=
  if FitsColumn row.processingId ∧ FitsColumn row.imageURL then
    match db.orchestrators.insertAll? [row] with
    | some orchestrators => .ok { db with orchestrators := orchestrators }
    | none => .error .dataIntegrityViolation
  else .error .dataIntegrityViolation

end EchoOrchestratorRepository

namespace EchoWorkerRepository

def ofProcessing (db : Database) (processingId : String) : List EchoWorker :=
  db.workers.rows.filter (fun row => row.processingId = processingId)

def existsByProcessingId (db : Database) (processingId : String) : Bool :=
  !(ofProcessing db processingId).isEmpty

def findByProcessingId (scan : Scan) (db : Database) (processingId : String) :
    List EchoWorker :=
  scan.order (ofProcessing db processingId)

def findByWorkerId (db : Database) (workerId : String) : Option EchoWorker :=
  db.workers.find? workerId

def findDistinctStateByProcessingId (db : Database) (processingId : String) :
    Finset Worker.State :=
  ((ofProcessing db processingId).map EchoWorker.state).toFinset

def save (db : Database) (row : EchoWorker) : Database :=
  { db with workers := db.workers.save row }

def saveAll (db : Database) (rows : List EchoWorker) : Except Failure Database :=
  match db.workers.insertAll? rows with
  | some workers => .ok { db with workers := workers }
  | none => .error .dataIntegrityViolation

theorem mem_ofProcessing (db : Database) (processingId : String) (row : EchoWorker) :
    row ∈ ofProcessing db processingId ↔
      row ∈ db.workers.rows ∧ row.processingId = processingId := by
  simp [ofProcessing]

theorem existsByProcessingId_eq_true_iff (db : Database) (processingId : String) :
    existsByProcessingId db processingId = true ↔ ofProcessing db processingId ≠ [] := by
  simp [existsByProcessingId]

theorem existsByProcessingId_eq_false_iff (db : Database) (processingId : String) :
    existsByProcessingId db processingId = false ↔ ofProcessing db processingId = [] := by
  simp [existsByProcessingId, List.isEmpty_iff]

theorem findByWorkerId_eq_some_iff (db : Database) (workerId : String) (row : EchoWorker) :
    findByWorkerId db workerId = some row ↔
      row ∈ db.workers.rows ∧ row.workerId = workerId :=
  db.workers.find?_eq_some_iff workerId row

/-- The test that decides on the merge, read as a statement about rows. -/
theorem states_are_done_iff (db : Database) (processingId : String) :
    ((findDistinctStateByProcessingId db processingId).card = 1 ∧
        Worker.State.done ∈ findDistinctStateByProcessingId db processingId) ↔
      ofProcessing db processingId ≠ [] ∧
        ∀ row ∈ ofProcessing db processingId, row.state = .done := by
  constructor
  · rintro ⟨single, member⟩
    obtain ⟨state, same⟩ := Finset.card_eq_one.mp single
    rw [same, Finset.mem_singleton] at member
    subst member
    constructor
    · intro empty
      rw [findDistinctStateByProcessingId, empty] at same
      exact absurd same.symm (Finset.singleton_ne_empty _)
    · intro row rowMember
      have listed : row.state ∈ findDistinctStateByProcessingId db processingId :=
        List.mem_toFinset.mpr (List.mem_map_of_mem rowMember)
      rw [same] at listed
      exact Finset.mem_singleton.mp listed
  · rintro ⟨nonempty, allDone⟩
    obtain ⟨first, firstMember⟩ := List.exists_mem_of_ne_nil _ nonempty
    have same : findDistinctStateByProcessingId db processingId = {Worker.State.done} := by
      ext state
      rw [findDistinctStateByProcessingId, List.mem_toFinset, List.mem_map, Finset.mem_singleton]
      constructor
      · rintro ⟨row, rowMember, rfl⟩
        exact allDone row rowMember
      · rintro rfl
        exact ⟨first, firstMember, allDone first firstMember⟩
    rw [same]
    exact ⟨Finset.card_singleton _, Finset.mem_singleton_self _⟩

theorem saveAll_eq_ok_iff (db : Database) (rows : List EchoWorker) (next : Database) :
    saveAll db rows = .ok next ↔
      next.orchestrators = db.orchestrators ∧ next.workers.rows = db.workers.rows ++ rows := by
  unfold saveAll
  obtain ⟨orchestrators, workers⟩ := next
  rcases db.workers.insertAll?_cases rows with ⟨stored, inserted, rowsIff⟩ | ⟨refused, noRows⟩
  · rw [inserted, rowsIff]
    simp only [Except.ok.injEq, Database.mk.injEq, eq_comm]
  · rw [refused]
    simp only [reduceCtorEq, noRows, and_false]

end EchoWorkerRepository

namespace EchoOrchestratorRepository

theorem findByProcessingId_eq_some_iff (db : Database) (processingId : String)
    (row : EchoOrchestrator) :
    findByProcessingId db processingId = some row ↔
      row ∈ db.orchestrators.rows ∧ row.processingId = processingId :=
  db.orchestrators.find?_eq_some_iff processingId row

theorem save_eq_ok_iff (db : Database) (row : EchoOrchestrator) (next : Database) :
    save db row = .ok next ↔
      (FitsColumn row.processingId ∧ FitsColumn row.imageURL) ∧
        next.workers = db.workers ∧ next.orchestrators.rows = db.orchestrators.rows ++ [row] := by
  unfold save
  obtain ⟨orchestrators, workers⟩ := next
  by_cases fits : FitsColumn row.processingId ∧ FitsColumn row.imageURL
  · rw [if_pos fits]
    rcases db.orchestrators.insertAll?_cases [row] with
      ⟨stored, inserted, rowsIff⟩ | ⟨refused, noRows⟩
    · rw [inserted, rowsIff]
      simp only [Except.ok.injEq, Database.mk.injEq, eq_comm, and_comm, fits, true_and]
    · rw [refused]
      simp only [reduceCtorEq, noRows, and_false]
  · rw [if_neg fits]
    simp only [reduceCtorEq, fits, false_and]

theorem save_returns {db : Database} {row : EchoOrchestrator}
    (fits : FitsColumn row.processingId ∧ FitsColumn row.imageURL)
    (missing : findByProcessingId db row.processingId = none) :
    ∃ next, save db row = .ok next := by
  unfold save
  rw [if_pos fits]
  cases inserted : db.orchestrators.insertAll? [row] with
  | some orchestrators => exact ⟨_, rfl⟩
  | none =>
      obtain ⟨old, taken⟩ := (db.orchestrators.insertAll?_singleton_eq_none_iff row).mp inserted
      cases missing.symm.trans taken

end EchoOrchestratorRepository

end EchoProcessing.Orchestrator
