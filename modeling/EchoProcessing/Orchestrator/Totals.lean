/-
The number of workers that the messages of a processing carry.

Each requested processing has no worker rows or one row for each cell of its grid. The
list that a handler goes through was read or inserted as all of these rows, so its
length, which every worker message carries, is the number of cells.
-/

import EchoProcessing.Geo.GridCoverage
import EchoProcessing.Orchestrator.GridRows
import EchoProcessing.Orchestrator.Ownership

namespace EchoProcessing.Orchestrator

open EchoWorkerRepository EchoWorkerService

/-- The tiles of 2000 by 2000 pixels that cover the image of the message. -/
def tileCount (message : EchoStartMessage) : ℕ :=
  ⌈(message.imageSizeX : ℚ) / 2000⌉₊ * ⌈(message.imageSizeY : ℚ) / 2000⌉₊

theorem GridFor.length_cells {message : EchoStartMessage} {grid : Grid}
    (gridFor : GridFor message grid) : grid.cells.length = tileCount message := by
  obtain ⟨geoTransform, _, split⟩ := gridFor
  rw [((GridService.split_ok_iff _ _ _ _ _ _).mp split).1, GridCoverage.cells_length]
  rfl

theorem MatchesGrid.length_rows {message : EchoStartMessage} {db : Database}
    (grid : MatchesGrid message db) :
    (ofProcessing db message.processingId).length = tileCount message := by
  obtain ⟨cells, gridFor, same⟩ := grid
  rw [← gridFor.length_cells, ← same, List.length_map]

theorem MatchesGrid.one_le_tileCount {message : EchoStartMessage} {db : Database}
    (grid : MatchesGrid message db) : 1 ≤ tileCount message := by
  rw [← grid.length_rows]
  exact List.length_pos_of_ne_nil grid.ne_nil

def Handler.Counted (requests : List EchoStartMessage) (db : Database) : Handler → Prop
  | .idle => True
  | .received message => message ∈ requests
  | .orchestrated message geoTransform =>
      message ∈ requests ∧ EchoService.geoTransformOf message = .ok geoTransform ∧
        message.TextsFit
  | .starting message totalWorkers _ =>
      message ∈ requests ∧ MatchesGrid message db ∧ totalWorkers = tileCount message ∧
        message.TextsFit

/-- A processing id is drawn for one request only. -/
def DistinctIds (requests : List EchoStartMessage) : Prop :=
  ∀ left ∈ requests, ∀ right ∈ requests, left.processingId = right.processingId → left = right

/-- The rows and the totals are those of the requested start messages. -/
structure Counted (requests : List EchoStartMessage) (system : System) : Prop where
  distinct : DistinctIds requests
  handlers : ∀ handler, (system.handlers handler).Counted requests system.db
  grids : ∀ message ∈ requests,
    ofProcessing system.db message.processingId = [] ∨ MatchesGrid message system.db
  totals : ∀ source ∈ system.workerMessages, ∃ message ∈ requests,
    source.processingId = message.processingId ∧ MatchesGrid message system.db ∧
      source.trackerTotalWorkers = tileCount message
  requested : ∀ row ∈ system.db.workers.rows, ∃ message ∈ requests,
    message.processingId = row.processingId
  stored : ∀ row ∈ system.db.orchestrators.rows, ∃ message ∈ requests,
    message.processingId = row.processingId ∧ message.TextsFit

theorem counted_initial {requests : List EchoStartMessage} (distinct : DistinctIds requests) :
    Counted requests (System.initial Database.empty) :=
  { distinct := distinct
    handlers := fun _ => trivial
    grids := fun _ _ => Or.inl rfl
    totals := fun _ member => by cases member
    requested := fun _ member => by cases member
    stored := fun _ member => by cases member }

theorem Handler.Counted.mono {requests more : List EchoStartMessage} {db next : Database}
    {phase : Handler} (counted : phase.Counted requests db)
    (requested : ∀ message ∈ requests, message ∈ more)
    (kept : ∀ message, MatchesGrid message db → MatchesGrid message next) :
    phase.Counted more next := by
  cases phase with
  | idle => trivial
  | received message => exact requested message counted
  | orchestrated message geoTransform => exact ⟨requested message counted.1, counted.2⟩
  | starting message totalWorkers workers =>
      exact ⟨requested message counted.1, kept message counted.2.1, counted.2.2⟩

private theorem Counted.ofProcessing_eq_nil {requests : List EchoStartMessage} {system : System}
    (counted : Counted requests system) {processingId : String}
    (fresh : ∀ message ∈ requests, message.processingId ≠ processingId) :
    ofProcessing system.db processingId = [] := by
  rw [ofProcessing, List.filter_eq_nil_iff]
  intro row member
  obtain ⟨message, requested, same⟩ := counted.requested row member
  simpa [same] using fresh message requested

theorem Counted.request {requests : List EchoStartMessage} {system : System}
    (counted : Counted requests system) {message : EchoStartMessage}
    (fresh : ∀ earlier ∈ requests, earlier.processingId ≠ message.processingId) :
    Counted (requests ++ [message]) system :=
  { distinct := by
      intro left leftMember right rightMember same
      rcases List.mem_append.mp leftMember with leftEarlier | leftAdded <;>
        rcases List.mem_append.mp rightMember with rightEarlier | rightAdded
      · exact counted.distinct left leftEarlier right rightEarlier same
      · rw [List.mem_singleton.mp rightAdded] at same
        exact absurd same (fresh left leftEarlier)
      · rw [List.mem_singleton.mp leftAdded] at same
        exact absurd same.symm (fresh right rightEarlier)
      · rw [List.mem_singleton.mp leftAdded, List.mem_singleton.mp rightAdded]
    handlers := fun handler => (counted.handlers handler).mono
      (fun _ member => List.mem_append_left _ member) (fun _ grid => grid)
    grids := by
      intro other member
      rcases List.mem_append.mp member with earlier | added
      · exact counted.grids other earlier
      · rw [List.mem_singleton.mp added]
        exact Or.inl (counted.ofProcessing_eq_nil fresh)
    totals := by
      intro source member
      obtain ⟨other, otherMember, facts⟩ := counted.totals source member
      exact ⟨other, List.mem_append_left _ otherMember, facts⟩
    requested := by
      intro row member
      obtain ⟨other, otherMember, same⟩ := counted.requested row member
      exact ⟨other, List.mem_append_left _ otherMember, same⟩
    stored := by
      intro row member
      obtain ⟨other, otherMember, facts⟩ := counted.stored row member
      exact ⟨other, List.mem_append_left _ otherMember, facts⟩ }

theorem MatchesGrid.insert {message : EchoStartMessage} {db next : Database}
    (grid : MatchesGrid message db) {processingId : String} {workers : List EchoWorker}
    (absent : ofProcessing db processingId = [])
    (own : ∀ row ∈ workers, row.processingId = processingId)
    (rows : next.workers.rows = db.workers.rows ++ workers) : MatchesGrid message next := by
  apply grid.of_same_rows
  apply ofProcessing_append_other rows
  intro row member same
  apply grid.ne_nil
  rw [← same, own row member]
  exact absent

theorem Counted.setHandler {requests : List EchoStartMessage} {system : System}
    (counted : Counted requests system) (handler : ℕ) {phase : Handler}
    (facts : phase.Counted requests system.db) :
    Counted requests (system.setHandler handler phase) :=
  { counted with
    handlers := (Function.forall_update_iff system.handlers
      (fun _ current => current.Counted requests system.db)).mpr
      ⟨facts, fun other _ => counted.handlers other⟩ }

theorem Counted.setDatabase {requests : List EchoStartMessage} {system : System}
    (counted : Counted requests system) {next : Database}
    (kept : ∀ message, MatchesGrid message system.db → MatchesGrid message next)
    (grids : ∀ message ∈ requests,
      ofProcessing next message.processingId = [] ∨ MatchesGrid message next)
    (requested : ∀ row ∈ next.workers.rows, ∃ message ∈ requests,
      message.processingId = row.processingId)
    (stored : ∀ row ∈ next.orchestrators.rows, ∃ message ∈ requests,
      message.processingId = row.processingId ∧ message.TextsFit) :
    Counted requests { system with db := next } :=
  { distinct := counted.distinct
    handlers := fun handler =>
      (counted.handlers handler).mono (fun _ member => member) kept
    grids := grids
    totals := by
      intro source member
      obtain ⟨message, messageMember, same, grid, total⟩ := counted.totals source member
      exact ⟨message, messageMember, same, kept message grid, total⟩
    requested := requested
    stored := stored }

theorem Counted.saveCopy {requests : List EchoStartMessage} {system : System}
    (counted : Counted requests system) {copy : EchoWorker} (copies : system.db.Copies copy) :
    Counted requests { system with db := save system.db copy } := by
  refine counted.setDatabase (fun _ grid => grid.save copies) ?_ ?_ counted.stored
  · intro message member
    rcases counted.grids message member with empty | grid
    · exact Or.inl ((ofProcessing_save_eq_nil_iff copies _).mpr empty)
    · exact Or.inr (grid.save copies)
  · intro row member
    have source := (copies_save_iff copies row).mp (Database.copies_of_mem member)
    obtain ⟨old, oldMember, _, sameProcessing⟩ := row_of_copies source
    rw [← sameProcessing]
    exact counted.requested old oldMember

theorem Counted.insert {requests : List EchoStartMessage} {system : System} {next : Database}
    (counted : Counted requests system) {message : EchoStartMessage} (member : message ∈ requests)
    {workers : List EchoWorker}
    (absent : ofProcessing system.db message.processingId = [])
    (own : ∀ row ∈ workers, row.processingId = message.processingId)
    (rows : next.workers.rows = system.db.workers.rows ++ workers)
    (sameOrchestrators : next.orchestrators = system.db.orchestrators)
    (matched : MatchesGrid message next) : Counted requests { system with db := next } := by
  refine counted.setDatabase (fun _ grid => grid.insert absent own rows) ?_ ?_
    (sameOrchestrators ▸ counted.stored)
  · intro other otherMember
    by_cases same : other.processingId = message.processingId
    · rw [counted.distinct other otherMember message member same]
      exact Or.inr matched
    · have sameRows := ofProcessing_append_other rows
        (fun row rowMember rowSame => same (rowSame.symm.trans (own row rowMember)))
      rw [sameRows]
      exact (counted.grids other otherMember).imp_right (fun grid => grid.of_same_rows sameRows)
  · intro row rowMember
    rcases List.mem_append.mp (rows ▸ rowMember) with old | new
    · exact counted.requested row old
    · exact ⟨message, member, (own row new).symm⟩

theorem Counted.publish {requests : List EchoStartMessage} {system : System}
    (counted : Counted requests system) {source : EchoWorkerMessage} {message : EchoStartMessage}
    (member : message ∈ requests) (same : source.processingId = message.processingId)
    (grid : MatchesGrid message system.db)
    (total : source.trackerTotalWorkers = tileCount message) :
    Counted requests { system with workerMessages := system.workerMessages ++ [source] } :=
  { counted with
    totals := by
      intro other otherMember
      rcases List.mem_append.mp otherMember with earlier | added
      · exact counted.totals other earlier
      · rw [List.mem_singleton.mp added]
        exact ⟨message, member, same, grid, total⟩ }

theorem Counted.facts {requests : List EchoStartMessage} {system : System}
    (counted : Counted requests system) {handler : ℕ} {phase : Handler}
    (current : system.handlers handler = phase) : phase.Counted requests system.db :=
  current ▸ counted.handlers handler

/-- The orchestrator row that is found was inserted for this message: ids are drawn once. -/
theorem Counted.textsFit {requests : List EchoStartMessage} {system : System}
    (counted : Counted requests system) {message : EchoStartMessage}
    (member : message ∈ requests) {row : EchoOrchestrator}
    (found : EchoOrchestratorRepository.findByProcessingId system.db message.processingId =
      some row) : message.TextsFit := by
  obtain ⟨stored, key⟩ :=
    (EchoOrchestratorRepository.findByProcessingId_eq_some_iff _ _ _).mp found
  obtain ⟨other, requested, same, fits⟩ := counted.stored row stored
  obtain rfl := counted.distinct other requested message member (same.trans key)
  exact fits

def Requested (requests : List EchoStartMessage) : Event → Prop
  | .receive _ message => message ∈ requests
  | _ => True

theorem Transition.counted {requests : List EchoStartMessage} {system next : System}
    {event : Event} (transition : Transition system event next) (owned : Owned system)
    (requested : Requested requests event) (counted : Counted requests system) :
    Counted requests next := by
  cases transition with
  | receive idle => exact counted.setHandler _ requested
  | giveUp own => exact counted.setHandler _ trivial
  | @orchestratorFound handler message geoTransform row phase transform found =>
      have fits := counted.textsFit (counted.facts phase) found
      exact counted.setHandler _ ⟨counted.facts phase, transform, fits⟩
  | @orchestratorInserted handler message geoTransform database row phase transform missing
      sameWorkers rowKey rows fits =>
      have sameRows := ofProcessing_of_workers_eq sameWorkers
      have kept : Counted requests { system with db := database } := by
        apply counted.setDatabase (fun _ grid => grid.of_same_rows (sameRows _))
        · intro other member
          rw [sameRows]
          exact (counted.grids other member).imp_right (fun grid => grid.of_same_rows (sameRows _))
        · rw [sameWorkers]
          exact counted.requested
        · intro other member
          rcases List.mem_append.mp (rows ▸ member) with old | new
          · exact counted.stored other old
          · rw [List.mem_singleton.mp new, rowKey]
            exact ⟨message, counted.facts phase, rfl, fits⟩
      exact kept.setHandler _ ⟨counted.facts phase, transform, fits⟩
  | @workersRead handler strategy uuid message geoTransform scan grid phase gridEq present =>
      obtain ⟨member, _, fits⟩ := counted.facts phase
      have matched := (counted.grids message member).resolve_left present
      apply counted.setHandler
      refine ⟨member, matched, ?_, fits⟩
      rw [findByProcessingId, (scan.perm _).length_eq, matched.length_rows]
  | @workersInserted handler strategy uuid message geoTransform database scan grid workers phase
      gridEq absent workersEq sameOrchestrators rows =>
      obtain ⟨member, transform, fits⟩ := counted.facts phase
      have own : ∀ row ∈ workers, row.processingId = message.processingId :=
        fun row rowMember => (mem_newWorkers (workersEq ▸ rowMember)).1
      have all := ofProcessing_append rows own
      rw [absent, List.nil_append] at all
      have matched : MatchesGrid message database :=
        matchesGrid_of_rows ⟨geoTransform, transform, gridEq⟩ (all.trans workersEq)
      have inserted := counted.insert member absent own rows sameOrchestrators matched
      have logged : Counted requests { system with
          db := database, insertions := system.insertions ++ [workers] } := { inserted with }
      apply logged.setHandler
      exact ⟨member, matched, by rw [← matched.length_rows, all], fits⟩
  | startSkipped phase leftInit =>
      obtain ⟨member, grid, total⟩ := counted.facts phase
      exact counted.setHandler _ ⟨member, grid, total⟩
  | @startCommitted handler strategy message totalWorkers worker rest phase initial =>
      obtain ⟨member, grid, total, fits⟩ := counted.facts phase
      have copies : system.db.Copies (started worker) :=
        (owned.head phase).1.of_assignment_eq rfl
      have sent : Counted requests { system with
          workerMessages := system.workerMessages ++ [workerMessage worker totalWorkers] } :=
        counted.publish member (owned.head phase).2 grid total
      exact (sent.saveCopy copies).setHandler _ ⟨member, grid.save copies, total, fits⟩
  | @startRolledBack handler strategy message totalWorkers worker rest phase initial =>
      obtain ⟨member, grid, total, _⟩ := counted.facts phase
      exact (counted.publish member (owned.head phase).2 grid total).setHandler _ trivial
  | @acknowledge handler message totalWorkers phase =>
      have logged : Counted requests { system with
          acknowledged := system.acknowledged ++ [message] } := { counted with }
      exact logged.setHandler _ trivial
  | work published => exact { counted with }
  | callbackDropped published => exact { counted with }
  | @callbackCommitted message scan row merge published found =>
      have member := ((findByWorkerId_eq_some_iff _ _ _).mp found).1
      have copies : system.db.Copies (finished row message.imageURL) :=
        (Database.copies_of_mem member).of_assignment_eq rfl
      exact { counted.saveCopy copies with }
  | callbackRolledBack published => exact { counted with }

end EchoProcessing.Orchestrator
