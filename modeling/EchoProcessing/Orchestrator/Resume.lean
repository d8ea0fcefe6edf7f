/-
Resuming the start of a processing.

One start message is delivered again and again, one delivery after the other. The
invariant ties the rows to the cells of the grid, every row that has left INIT to a
published message, and the copies that a delivery still has to start to the current
rows; callbacks between two deliveries cannot make those copies stale.
-/

import EchoProcessing.Orchestrator.Consistency
import EchoProcessing.Orchestrator.GridRows

namespace EchoProcessing.Orchestrator

open EchoWorkerRepository EchoWorkerService

/-- Handler 0 takes one delivery of `message` after the other, and callbacks are
processed while it is idle. -/
def Sequential (message : EchoStartMessage) (system : System) : Event → Prop
  | .receive handler received => handler = 0 ∧ received = message
  | .createOrchestrator handler => handler = 0
  | .createWorkers handler _ _ _ => handler = 0
  | .startEchoWorker handler _ _ => handler = 0
  | .acknowledge handler => handler = 0
  | .stop handler => handler = 0
  | .work _ => True
  | .callback _ _ _ => system.handlers 0 = .idle

/-- The message tells a worker to render the cell of the row. -/
def Carries (message : EchoWorkerMessage) (row : EchoWorker) : Prop :=
  message.processingId = row.processingId ∧ message.workerId = row.workerId ∧
    message.imageURL = row.imageURL ∧
    ({ sizeX := message.tileSizeX, sizeY := message.tileSizeY,
       geoTransform := message.geoTransform } : Cell) = row.cell

theorem carries_workerMessage (row : EchoWorker) (totalWorkers : ℤ) :
    Carries (workerMessage row totalWorkers) row := ⟨rfl, rfl, rfl, rfl⟩

theorem Carries.of_assignment {message : EchoWorkerMessage} {row other : EchoWorker}
    (carries : Carries message row) (same : row.assignment = other.assignment) :
    Carries message other := by
  obtain ⟨processing, worker, image, cell⟩ := carries
  have sameImage : row.imageURL = other.imageURL := by
    have column := congrArg EchoWorker.imageURL same
    exact column
  exact ⟨processing.trans (processingId_of_assignment same),
    worker.trans (workerId_of_assignment same), image.trans sameImage,
    cell.trans (cell_of_assignment same)⟩

/-- The rows of the processing are the cells of its grid, inserted together. -/
structure RowsAreCells (message : EchoStartMessage) (db : Database)
    (insertions : List (List EchoWorker)) : Prop where
  grid : MatchesGrid message db
  together : insertions.map (List.map EchoWorker.workerId) =
    [(ofProcessing db message.processingId).map EchoWorker.workerId]

theorem RowsAreCells.save {message : EchoStartMessage} {db : Database}
    {insertions : List (List EchoWorker)} {copy : EchoWorker}
    (cells : RowsAreCells message db insertions) (copies : db.Copies copy) :
    RowsAreCells message (save db copy) insertions := by
  refine ⟨cells.grid.save copies, ?_⟩
  rw [map_ofProcessing_save copies _ _ workerId_of_assignment, cells.together]

/-- What the phase of handler 0 says about the rows. -/
def PhaseFacts (message : EchoStartMessage) (db : Database)
    (insertions : List (List EchoWorker)) : Handler → Prop
  | .idle => True
  | .received received => received = message
  | .orchestrated received geoTransform => received = message ∧
      EchoService.geoTransformOf message = .ok geoTransform ∧
      ∃ row, EchoOrchestratorRepository.findByProcessingId db message.processingId = some row
  | .starting received totalWorkers workers => received = message ∧
      totalWorkers = (ofProcessing db message.processingId).length ∧
      RowsAreCells message db insertions ∧
      (workers.map EchoWorker.workerId).Nodup ∧
      (∀ copy ∈ workers, copy ∈ ofProcessing db message.processingId) ∧
      ∀ row ∈ ofProcessing db message.processingId, row.state = .init → row ∈ workers

/-- What the rows and the published messages say about each other. -/
structure Recorded (message : EchoStartMessage) (system : System) : Prop where
  orchestrator : ofProcessing system.db message.processingId ≠ [] → ∃ row,
    EchoOrchestratorRepository.findByProcessingId system.db message.processingId = some row
  rows : (ofProcessing system.db message.processingId = [] ∧ system.insertions = []) ∨
    RowsAreCells message system.db system.insertions
  carried : ∀ published ∈ system.workerMessages,
    published.trackerTotalWorkers = (ofProcessing system.db message.processingId).length ∧
      ∃ row ∈ ofProcessing system.db message.processingId, Carries published row
  published : ∀ row ∈ ofProcessing system.db message.processingId, row.state ≠ .init →
    ∃ published ∈ system.workerMessages, published.workerId = row.workerId
  callbacks : ∀ callback ∈ system.callbackMessages, ∃ source ∈ system.workerMessages,
    callback = source.callback

structure Resumable (message : EchoStartMessage) (system : System) : Prop
    extends Recorded message system where
  phase : PhaseFacts message system.db system.insertions (system.handlers 0)

/-! ### Preservation, one part of a step at a time -/

theorem Resumable.setHandler {message : EchoStartMessage} {system : System}
    (recorded : Recorded message system) {phase : Handler}
    (facts : PhaseFacts message system.db system.insertions phase) :
    Resumable message (system.setHandler 0 phase) :=
  { recorded with
    phase := by
      change PhaseFacts message system.db system.insertions
        (Function.update system.handlers 0 phase 0)
      rw [Function.update_self]
      exact facts }

theorem Recorded.createOrchestrator {message : EchoStartMessage} {system : System}
    (recorded : Recorded message system) {next : Database}
    (sameWorkers : next.workers = system.db.workers)
    (created : ∃ row, EchoOrchestratorRepository.findByProcessingId next message.processingId =
      some row) : Recorded message { system with db := next } := by
  have sameRows := ofProcessing_of_workers_eq sameWorkers message.processingId
  refine
    { orchestrator := fun _ => created
      rows := ?_
      carried := ?_
      published := ?_
      callbacks := recorded.callbacks }
  · rcases recorded.rows with ⟨empty, none⟩ | ⟨grid, together⟩
    · exact Or.inl ⟨sameRows.trans empty, none⟩
    · right
      refine ⟨grid.of_same_rows sameRows, ?_⟩
      rw [sameRows]
      exact together
  · rw [sameRows]
    exact recorded.carried
  · rw [sameRows]
    exact recorded.published

theorem Recorded.publish {message : EchoStartMessage} {system : System}
    (recorded : Recorded message system) {worker : EchoWorker}
    (member : worker ∈ ofProcessing system.db message.processingId) {totalWorkers : ℤ}
    (total : totalWorkers = (ofProcessing system.db message.processingId).length) :
    Recorded message { system with
      workerMessages := system.workerMessages ++ [workerMessage worker totalWorkers] } :=
  { orchestrator := recorded.orchestrator
    rows := recorded.rows
    carried := by
      intro published publishedMember
      rcases List.mem_append.mp publishedMember with earlier | added
      · exact recorded.carried published earlier
      · rw [List.mem_singleton.mp added]
        exact ⟨total, worker, member, carries_workerMessage worker totalWorkers⟩
    published := by
      intro row rowMember leftInit
      obtain ⟨published, publishedMember, same⟩ := recorded.published row rowMember leftInit
      exact ⟨published, List.mem_append_left _ publishedMember, same⟩
    callbacks := by
      intro callback callbackMember
      obtain ⟨source, sourceMember, same⟩ := recorded.callbacks callback callbackMember
      exact ⟨source, List.mem_append_left _ sourceMember, same⟩ }

theorem Recorded.save {message : EchoStartMessage} {system : System}
    (recorded : Recorded message system) {copy : EchoWorker} (copies : system.db.Copies copy)
    (source : ∃ published ∈ system.workerMessages, published.workerId = copy.workerId) :
    Recorded message { system with db := save system.db copy } :=
  { orchestrator := by
      intro nonempty
      apply recorded.orchestrator
      intro empty
      apply nonempty
      change ofProcessing (EchoWorkerRepository.save system.db copy) message.processingId = []
      rw [ofProcessing_save copies, empty, List.map_nil]
    rows := by
      rcases recorded.rows with ⟨empty, none⟩ | cells
      · left
        refine ⟨?_, none⟩
        change ofProcessing (EchoWorkerRepository.save system.db copy) message.processingId = []
        rw [ofProcessing_save copies, empty, List.map_nil]
      · exact Or.inr (cells.save copies)
    carried := by
      intro published publishedMember
      obtain ⟨total, row, rowMember, carries⟩ := recorded.carried published publishedMember
      refine ⟨total.trans (by rw [length_ofProcessing_save copies]), overwrite copy row, ?_, ?_⟩
      · change overwrite copy row ∈
          ofProcessing (EchoWorkerRepository.save system.db copy) message.processingId
        rw [ofProcessing_save copies]
        exact List.mem_map_of_mem rowMember
      · exact carries.of_assignment
          (copies.assignment_overwrite ((mem_ofProcessing _ _ _).mp rowMember).1).symm
    published := by
      intro row rowMember leftInit
      rcases mem_ofProcessing_save copies rowMember with ⟨old, _⟩ | rfl
      · exact recorded.published row old leftInit
      · exact source
    callbacks := recorded.callbacks }

theorem Recorded.insert {message : EchoStartMessage} {system : System} {next : Database}
    (recorded : Recorded message system) {uuid : ℕ → String} {grid : Grid}
    (gridFor : GridFor message grid)
    (created : ∃ row, EchoOrchestratorRepository.findByProcessingId system.db
      message.processingId = some row)
    (absent : ofProcessing system.db message.processingId = [])
    (sameOrchestrators : next.orchestrators = system.db.orchestrators)
    (all : ofProcessing next message.processingId =
      newWorkers message.processingId message.imageURL uuid grid) :
    Recorded message { system with
      db := next
      insertions := system.insertions ++
        [newWorkers message.processingId message.imageURL uuid grid] } := by
  have firstInsertion : system.insertions = [] := by
    rcases recorded.rows with ⟨_, none⟩ | cells
    · exact none
    · exact absurd absent cells.grid.ne_nil
  refine
    { orchestrator := fun _ => ?_
      rows := Or.inr ⟨matchesGrid_of_rows gridFor all, ?_⟩
      carried := ?_
      published := ?_
      callbacks := recorded.callbacks }
  · obtain ⟨row, found⟩ := created
    refine ⟨row, ?_⟩
    unfold EchoOrchestratorRepository.findByProcessingId at found ⊢
    rw [sameOrchestrators, found]
  · rw [all, firstInsertion]
    rfl
  · intro published publishedMember
    obtain ⟨_, row, rowMember, _⟩ := recorded.carried published publishedMember
    rw [absent] at rowMember
    cases rowMember
  · intro row rowMember leftInit
    rw [all] at rowMember
    exact absurd (mem_newWorkers rowMember).2 leftInit

private theorem rowsAreCells_of_ne_nil {message : EchoStartMessage} {system : System}
    (recorded : Recorded message system)
    (present : ofProcessing system.db message.processingId ≠ []) :
    RowsAreCells message system.db system.insertions := by
  rcases recorded.rows with ⟨empty, _⟩ | cells
  · exact absurd empty present
  · exact cells

theorem PhaseFacts.of_perm {message : EchoStartMessage} {db : Database}
    {insertions : List (List EchoWorker)} {workers : List EchoWorker}
    (cells : RowsAreCells message db insertions)
    (perm : workers.Perm (ofProcessing db message.processingId)) :
    PhaseFacts message db insertions (.starting message workers.length workers) := by
  refine ⟨rfl, by rw [perm.length_eq], cells, ?_, ?_, ?_⟩
  · exact (perm.map EchoWorker.workerId).nodup_iff.mpr (nodup_workerIds _ _)
  · exact fun copy member => perm.mem_iff.mp member
  · exact fun row member _ => perm.mem_iff.mpr member

theorem PhaseFacts.skip {message received : EchoStartMessage} {db : Database}
    {insertions : List (List EchoWorker)} {totalWorkers : ℤ} {worker : EchoWorker}
    {rest : List EchoWorker}
    (facts : PhaseFacts message db insertions (.starting received totalWorkers (worker :: rest)))
    (leftInit : worker.state ≠ .init) :
    PhaseFacts message db insertions (.starting received totalWorkers rest) := by
  obtain ⟨same, total, cells, distinct, current, pending⟩ := facts
  refine ⟨same, total, cells, (List.nodup_cons.mp distinct).2,
    fun copy member => current copy (List.mem_cons_of_mem worker member), ?_⟩
  intro row member initial
  rcases List.mem_cons.mp (pending row member initial) with rfl | inRest
  · exact absurd initial leftInit
  · exact inRest

theorem PhaseFacts.start {message received : EchoStartMessage} {db : Database}
    {insertions : List (List EchoWorker)} {totalWorkers : ℤ} {worker : EchoWorker}
    {rest : List EchoWorker}
    (facts : PhaseFacts message db insertions (.starting received totalWorkers (worker :: rest))) :
    PhaseFacts message (save db (started worker)) insertions
      (.starting received totalWorkers rest) := by
  obtain ⟨same, total, cells, distinct, current, pending⟩ := facts
  have copies : db.Copies (started worker) :=
    (Database.copies_of_mem
      ((mem_ofProcessing _ _ _).mp (current worker List.mem_cons_self)).1).of_assignment_eq rfl
  rw [List.map_cons, List.nodup_cons] at distinct
  refine ⟨same, total.trans (by rw [length_ofProcessing_save copies]), cells.save copies,
    distinct.2, ?_, ?_⟩
  · intro copy member
    have other : copy.workerId ≠ (started worker).workerId := by
      intro sameWorker
      exact distinct.1 (List.mem_map.mpr ⟨copy, member, sameWorker⟩)
    rw [ofProcessing_save copies, List.mem_map]
    exact ⟨copy, current copy (List.mem_cons_of_mem worker member), overwrite_of_ne other⟩
  · intro row member initial
    rcases mem_ofProcessing_save copies member with ⟨old, different⟩ | rfl
    · rcases List.mem_cons.mp (pending row old initial) with rfl | inRest
      · exact absurd rfl different
      · exact inRest
    · cases initial

theorem PhaseFacts.head {message received : EchoStartMessage} {db : Database}
    {insertions : List (List EchoWorker)} {totalWorkers : ℤ} {worker : EchoWorker}
    {rest : List EchoWorker}
    (facts : PhaseFacts message db insertions (.starting received totalWorkers (worker :: rest))) :
    worker ∈ ofProcessing db message.processingId ∧
      totalWorkers = (ofProcessing db message.processingId).length :=
  ⟨facts.2.2.2.2.1 worker List.mem_cons_self, facts.2.1⟩

theorem Resumable.facts {message : EchoStartMessage} {system : System}
    (resumable : Resumable message system) {phase : Handler}
    (current : system.handlers 0 = phase) :
    PhaseFacts message system.db system.insertions phase :=
  current ▸ resumable.phase

theorem Sequential.handler_eq {message : EchoStartMessage} {system : System} {event : Event}
    {handler : ℕ} (sequential : Sequential message system event)
    (own : event.handler? = some handler) : handler = 0 := by
  cases event with
  | receive other received => exact (Option.some.inj own) ▸ sequential.1
  | work other => cases own
  | callback other scan outcome => cases own
  | createOrchestrator other => exact (Option.some.inj own) ▸ sequential
  | createWorkers other strategy uuid scan => exact (Option.some.inj own) ▸ sequential
  | startEchoWorker other strategy outcome => exact (Option.some.inj own) ▸ sequential
  | acknowledge other => exact (Option.some.inj own) ▸ sequential
  | stop other => exact (Option.some.inj own) ▸ sequential

private theorem Transition.resumable {message : EchoStartMessage} {system next : System}
    {event : Event}
    (transition : Transition system event next) (sequential : Sequential message system event)
    (resumable : Resumable message system) : Resumable message next := by
  have recorded := resumable.toRecorded
  cases transition with
  | @receive handler received idle =>
      obtain ⟨rfl, rfl⟩ := sequential
      exact Resumable.setHandler recorded rfl
  | @giveUp event handler own =>
      have first := sequential.handler_eq own
      subst first
      exact Resumable.setHandler recorded trivial
  | @orchestratorFound handler received geoTransform row phase transform found =>
      obtain rfl : handler = 0 := sequential
      obtain rfl : received = message := resumable.facts phase
      exact Resumable.setHandler recorded ⟨rfl, transform, row, found⟩
  | @orchestratorInserted handler received geoTransform database row phase transform missing
      sameWorkers rowKey rows =>
      obtain rfl : handler = 0 := sequential
      obtain rfl : received = message := resumable.facts phase
      have found : EchoOrchestratorRepository.findByProcessingId database
          received.processingId = some row :=
        (EchoOrchestratorRepository.findByProcessingId_eq_some_iff _ _ _).mpr
          ⟨rows ▸ List.mem_append_right _ (List.mem_singleton_self row), rowKey⟩
      have kept := recorded.createOrchestrator sameWorkers ⟨row, found⟩
      exact Resumable.setHandler kept ⟨rfl, transform, row, found⟩
  | @workersRead handler strategy uuid received geoTransform scan grid phase gridEq present =>
      obtain rfl : handler = 0 := sequential
      obtain ⟨rfl, transform, _⟩ := resumable.facts phase
      have perm := scan.perm (ofProcessing system.db received.processingId)
      have cells := rowsAreCells_of_ne_nil recorded present
      exact Resumable.setHandler recorded (PhaseFacts.of_perm cells perm)
  | @workersInserted handler strategy uuid received geoTransform database scan grid workers phase
      gridEq absent workersEq sameOrchestrators rows =>
      obtain rfl : handler = 0 := sequential
      obtain ⟨rfl, transform, created⟩ := resumable.facts phase
      subst workersEq
      have all := ofProcessing_append rows (fun row member => (mem_newWorkers member).1)
      rw [absent, List.nil_append] at all
      have gridFor : GridFor received grid := ⟨geoTransform, transform, gridEq⟩
      have inserted := recorded.insert gridFor created absent sameOrchestrators all
      have cells := rowsAreCells_of_ne_nil inserted (matchesGrid_of_rows gridFor all).ne_nil
      exact Resumable.setHandler inserted (PhaseFacts.of_perm cells (List.Perm.of_eq all.symm))
  | @startSkipped handler strategy received totalWorkers worker rest phase leftInit =>
      obtain rfl : handler = 0 := sequential
      exact Resumable.setHandler recorded ((resumable.facts phase).skip leftInit)
  | @startCommitted handler strategy received totalWorkers worker rest phase initial =>
      obtain rfl : handler = 0 := sequential
      have facts := resumable.facts phase
      obtain ⟨member, total⟩ := facts.head
      have copies : system.db.Copies (started worker) :=
        (Database.copies_of_mem ((mem_ofProcessing _ _ _).mp member).1).of_assignment_eq rfl
      have published := recorded.publish member total
      have saved := published.save copies
        ⟨workerMessage worker totalWorkers,
          List.mem_append_right _ (List.mem_singleton_self _), rfl⟩
      exact Resumable.setHandler saved facts.start
  | @startRolledBack handler strategy received totalWorkers worker rest phase initial =>
      obtain rfl : handler = 0 := sequential
      obtain ⟨member, total⟩ := (resumable.facts phase).head
      exact Resumable.setHandler (recorded.publish member total) trivial
  | @acknowledge handler received totalWorkers phase =>
      obtain rfl : handler = 0 := sequential
      have logged : Recorded message { system with
          acknowledged := system.acknowledged ++ [received] } := { recorded with }
      exact Resumable.setHandler logged trivial
  | @work source published =>
      exact
        { recorded with
          callbacks := by
            intro callback member
            rcases List.mem_append.mp member with earlier | added
            · exact recorded.callbacks callback earlier
            · exact ⟨source, published, List.mem_singleton.mp added⟩
          phase := resumable.phase }
  | callbackDropped published => exact { recorded with phase := resumable.phase }
  | @callbackCommitted callback scan row merge published found =>
      obtain ⟨rowMember, rowWorker⟩ := (findByWorkerId_eq_some_iff _ _ _).mp found
      have copies : system.db.Copies (finished row callback.imageURL) :=
        (Database.copies_of_mem rowMember).of_assignment_eq rfl
      obtain ⟨source, sourceMember, same⟩ := recorded.callbacks callback published
      have sourceWorker : source.workerId = row.workerId := by
        rw [rowWorker, same]
        rfl
      have saved := recorded.save copies ⟨source, sourceMember, sourceWorker⟩
      have idle : system.handlers 0 = .idle := sequential
      exact
        { saved with
          phase := by
            change PhaseFacts _ _ _ (system.handlers 0)
            rw [idle]
            trivial }
  | callbackRolledBack published => exact { recorded with phase := resumable.phase }

/-! ### A row leaves INIT once -/

def LeftInit (db : Database) (workerId : String) : Prop :=
  ∃ row, findByWorkerId db workerId = some row ∧ row.state ≠ .init

theorem LeftInit.save {db : Database} {copy : EchoWorker} {workerId : String}
    (left : LeftInit db workerId) (copies : db.Copies copy) (saved : copy.state ≠ .init) :
    LeftInit (save db copy) workerId := by
  unfold LeftInit
  rw [findByWorkerId_save copies]
  by_cases same : workerId = copy.workerId
  · rw [if_pos same]
    exact ⟨copy, rfl, saved⟩
  · rw [if_neg same]
    exact left

theorem Transition.leftInit {message : EchoStartMessage} {system next : System} {event : Event}
    (transition : Transition system event next) (sequential : Sequential message system event)
    (resumable : Resumable message system) {workerId : String}
    (left : LeftInit system.db workerId) : LeftInit next.db workerId := by
  cases transition with
  | receive idle => exact left
  | giveUp own => exact left
  | orchestratorFound phase transform found => exact left
  | @orchestratorInserted handler received geoTransform database row phase transform missing
      sameWorkers rowKey rows =>
      obtain ⟨row, found, leftInit⟩ := left
      refine ⟨row, ?_, leftInit⟩
      change database.workers.find? workerId = some row
      rw [sameWorkers]
      exact found
  | workersRead phase gridEq present => exact left
  | @workersInserted handler strategy uuid received geoTransform database scan grid workers phase
      gridEq absent workersEq sameOrchestrators rows =>
      obtain ⟨row, found, leftInit⟩ := left
      obtain ⟨member, same⟩ := (findByWorkerId_eq_some_iff _ _ _).mp found
      exact ⟨row, (findByWorkerId_eq_some_iff _ _ _).mpr
        ⟨rows ▸ List.mem_append_left _ member, same⟩, leftInit⟩
  | startSkipped phase leftInit => exact left
  | @startCommitted handler strategy received totalWorkers worker rest phase initial =>
      obtain rfl : handler = 0 := sequential
      obtain ⟨member, _⟩ := (resumable.facts phase).head
      have copies : system.db.Copies (started worker) :=
        (Database.copies_of_mem ((mem_ofProcessing _ _ _).mp member).1).of_assignment_eq rfl
      apply left.save copies
      intro same
      cases same
  | startRolledBack phase initial => exact left
  | acknowledge phase => exact left
  | work published => exact left
  | callbackDropped published => exact left
  | @callbackCommitted callback scan row merge published found =>
      obtain ⟨rowMember, _⟩ := (findByWorkerId_eq_some_iff _ _ _).mp found
      have copies : system.db.Copies (finished row callback.imageURL) :=
        (Database.copies_of_mem rowMember).of_assignment_eq rfl
      apply left.save copies
      intro same
      cases same
  | callbackRolledBack published => exact left

theorem Transition.publishes_from_init {message : EchoStartMessage} {system next : System}
    {event : Event} (transition : Transition system event next)
    (sequential : Sequential message system event) (resumable : Resumable message system) :
    ∃ added, next.workerMessages = system.workerMessages ++ added ∧
      ∀ published ∈ added, ∃ row, findByWorkerId system.db published.workerId = some row ∧
        row.state = .init := by
  have nothing : ∃ added, system.workerMessages = system.workerMessages ++ added ∧
      ∀ published ∈ added, ∃ row, findByWorkerId system.db published.workerId = some row ∧
        row.state = .init := by
    refine ⟨[], (List.append_nil _).symm, ?_⟩
    intro published impossible
    cases impossible
  have one : ∀ {worker : EchoWorker} (totalWorkers : ℤ),
      worker ∈ ofProcessing system.db message.processingId → worker.state = .init →
      ∀ published ∈ [workerMessage worker totalWorkers], ∃ row,
        findByWorkerId system.db published.workerId = some row ∧ row.state = .init := by
    intro worker totalWorkers member initial published added
    rw [List.mem_singleton.mp added]
    exact ⟨worker, (findByWorkerId_eq_some_iff _ _ _).mpr
      ⟨((mem_ofProcessing _ _ _).mp member).1, rfl⟩, initial⟩
  cases transition with
  | @startCommitted handler strategy received totalWorkers worker rest phase initial =>
      obtain rfl : handler = 0 := sequential
      exact ⟨_, rfl, one totalWorkers (resumable.facts phase).head.1 initial⟩
  | @startRolledBack handler strategy received totalWorkers worker rest phase initial =>
      obtain rfl : handler = 0 := sequential
      exact ⟨_, rfl, one totalWorkers (resumable.facts phase).head.1 initial⟩
  | receive idle => exact nothing
  | giveUp own => exact nothing
  | orchestratorFound phase transform found => exact nothing
  | orchestratorInserted phase transform missing sameWorkers rowKey rows => exact nothing
  | workersRead phase gridEq present => exact nothing
  | workersInserted phase gridEq absent workersEq sameOrchestrators rows => exact nothing
  | startSkipped phase leftInit => exact nothing
  | acknowledge phase => exact nothing
  | work published => exact nothing
  | callbackDropped published => exact nothing
  | callbackCommitted published found => exact nothing
  | callbackRolledBack published => exact nothing

/-! ### Runs of deliveries -/

private theorem resumable_initial (message : EchoStartMessage) {db : Database}
    (fresh : ofProcessing db message.processingId = []) :
    Resumable message (System.initial db) :=
  { orchestrator := fun nonempty => absurd fresh nonempty
    rows := Or.inl ⟨fresh, rfl⟩
    carried := fun _ member => by cases member
    published := by
      intro row member
      change row ∈ ofProcessing db message.processingId at member
      rw [fresh] at member
      cases member
    callbacks := fun _ member => by cases member
    phase := trivial }

private theorem resumable_of_runs {message : EchoStartMessage} {start system : System}
    {events : List Event} (initially : Resumable message start)
    (sequential : delivery.EveryStep (Sequential message) start events)
    (reached : delivery.Runs start events system) : Resumable message system :=
  reached.invariant_of_everyStep
    (fun _ _ _ resumable own stepped => (step_transition stepped).resumable own resumable)
    initially sequential

private theorem leftInit_of_runs {message : EchoStartMessage} {start system : System}
    {events : List Event} (initially : Resumable message start)
    (sequential : delivery.EveryStep (Sequential message) start events)
    (reached : delivery.Runs start events system) {workerId : String}
    (left : LeftInit start.db workerId) : LeftInit system.db workerId := by
  have preserved : ∀ state event next,
      Resumable message state ∧ LeftInit state.db workerId →
      Sequential message state event → delivery.step state event = some next →
      Resumable message next ∧ LeftInit next.db workerId := by
    intro state event next holds own stepped
    have transition := step_transition stepped
    exact ⟨transition.resumable own holds.1, transition.leftInit own holds.1 holds.2⟩
  exact (reached.invariant_of_everyStep preserved ⟨initially, left⟩ sequential).2

/-- What a completed delivery of the start message leaves behind. -/
structure StartCompleted (message : EchoStartMessage) (system : System) : Prop where
  oneOrchestrator : (system.db.orchestrators.rows.filter
    (fun row => row.processingId = message.processingId)).length = 1
  rowsAreCells : RowsAreCells message system.db system.insertions
  distinctWorkers :
    ((ofProcessing system.db message.processingId).map EchoWorker.workerId).Nodup
  noneInitial : ∀ row ∈ ofProcessing system.db message.processingId, row.state ≠ .init
  everyPublished : ∀ row ∈ ofProcessing system.db message.processingId,
    ∃ published ∈ system.workerMessages, published.workerId = row.workerId
  allCarry : ∀ row ∈ ofProcessing system.db message.processingId,
    ∀ published ∈ system.workerMessages, published.workerId = row.workerId →
      Carries published row

private theorem length_filter_key {ρ κ : Type*} [DecidableEq κ] {key : ρ → κ}
    (table : KeyedTable key) {row : ρ} (member : row ∈ table.rows) :
    (table.rows.filter (fun other => key other = key row)).length = 1 := by
  have counted := List.count_eq_one_of_mem table.unique (List.mem_map_of_mem member)
  rw [List.count, List.countP_map, List.countP_eq_length_filter] at counted
  rw [← counted]
  congr 1

private theorem Recorded.carries_of_same {message : EchoStartMessage} {system : System}
    (recorded : Recorded message system) {row : EchoWorker}
    (member : row ∈ ofProcessing system.db message.processingId) {published : EchoWorkerMessage}
    (publishedMember : published ∈ system.workerMessages)
    (same : published.workerId = row.workerId) : Carries published row := by
  obtain ⟨_, other, otherMember, carries⟩ := recorded.carried published publishedMember
  have sameRow : other = row := system.db.workers.eq_of_key_eq
    ((mem_ofProcessing _ _ _).mp otherMember).1 ((mem_ofProcessing _ _ _).mp member).1
    (carries.2.1.symm.trans same)
  exact sameRow ▸ carries

theorem Resumable.completed {message : EchoStartMessage} {system next : System}
    (resumable : Resumable message system)
    (acknowledged : delivery.step system (.acknowledge 0) = some next) :
    StartCompleted message next := by
  have recorded := resumable.toRecorded
  cases step_performs acknowledged with
  | acknowledge phase =>
      obtain ⟨_, _, cells, _, _, pending⟩ := resumable.facts phase
      have noneInitial : ∀ row ∈ ofProcessing system.db message.processingId,
          row.state ≠ .init := by
        intro row member initial
        cases pending row member initial
      obtain ⟨row, found⟩ := recorded.orchestrator cells.grid.ne_nil
      obtain ⟨rowMember, rowKey⟩ :=
        (EchoOrchestratorRepository.findByProcessingId_eq_some_iff _ _ _).mp found
      exact
        { oneOrchestrator := rowKey ▸ length_filter_key system.db.orchestrators rowMember
          rowsAreCells := cells
          distinctWorkers := nodup_workerIds system.db message.processingId
          noneInitial := noneInitial
          everyPublished := fun row member =>
            recorded.published row member (noneInitial row member)
          allCarry := fun _ member _ published same =>
            recorded.carries_of_same member published same }

/-- Through all of `events` no committed row of the worker has left INIT. -/
def InitThroughout (start : System) (events : List Event) (workerId : String) : Prop :=
  delivery.EveryState
    (fun state => ∀ row, findByWorkerId state.db workerId = some row → row.state = .init)
    start events

private theorem initThroughout_of_init {message : EchoStartMessage} {start system : System}
    {events : List Event} (initially : Resumable message start)
    (sequential : delivery.EveryStep (Sequential message) start events)
    (reached : delivery.Runs start events system) {workerId : String}
    (initial : ¬LeftInit system.db workerId) : InitThroughout start events workerId := by
  intro before after state split toState row found
  by_contra left
  subst split
  obtain ⟨middle, toMiddle, fromMiddle⟩ := (delivery.runs_append _ _ _ _).mp reached
  have same : middle = state := toMiddle.unique toState
  subst same
  have resumable := resumable_of_runs initially sequential.of_append toMiddle
  apply initial
  exact leftInit_of_runs resumable (sequential.after toMiddle) fromMiddle ⟨row, found, left⟩

/-- However often the start message is delivered and cut off, a delivery that completes
leaves one row for each cell, started by messages that were published from INIT only. -/
theorem start_is_resumable {message : EchoStartMessage} {db : Database} {events : List Event}
    {system : System} (fresh : ofProcessing db message.processingId = [])
    (sequential : delivery.EveryStep (Sequential message) (System.initial db)
      (events ++ [.acknowledge 0]))
    (reached : delivery.Runs (System.initial db) (events ++ [.acknowledge 0]) system) :
    StartCompleted message system ∧
      ∀ before event after state next, events ++ [.acknowledge 0] = before ++ event :: after →
        delivery.Runs (System.initial db) before state →
        delivery.step state event = some next →
        ∃ added, next.workerMessages = state.workerMessages ++ added ∧
          ∀ published ∈ added,
            (∃ row, findByWorkerId state.db published.workerId = some row ∧ row.state = .init) ∧
              InitThroughout (System.initial db) before published.workerId := by
  have initially := resumable_initial message fresh
  constructor
  · obtain ⟨last, toLast, acknowledged⟩ := (delivery.runs_snoc _ _ _ _).mp reached
    exact (resumable_of_runs initially sequential.of_append toLast).completed acknowledged
  · intro before event after state next split toState stepped
    have upTo : delivery.EveryStep (Sequential message) (System.initial db)
        (before ++ [event]) := by
      rw [split, ← List.singleton_append, ← List.append_assoc] at sequential
      exact sequential.of_append
    have resumable := resumable_of_runs initially upTo.of_append toState
    obtain ⟨added, grown, fromInit⟩ :=
      (step_transition stepped).publishes_from_init (upTo.last toState) resumable
    refine ⟨added, grown, fun published member => ⟨fromInit published member, ?_⟩⟩
    obtain ⟨row, found, initial⟩ := fromInit published member
    apply initThroughout_of_init initially upTo.of_append toState
    rintro ⟨other, otherFound, left⟩
    have same : row = other := Option.some.inj (found.symm.trans otherFound)
    exact left (same ▸ initial)

theorem start_is_resumable_after_rollback :
    ∃ system, delivery.Runs (System.initial Database.empty)
        (Sample.untilStarted .rolledBack ++ Sample.untilStarted .committed ++ [.acknowledge 0])
        system ∧
      system.workerMessages.length = 2 ∧ StartCompleted Sample.startMessage system := by
  have counted : (delivery.run (System.initial Database.empty)
      (Sample.untilStarted .rolledBack ++ Sample.untilStarted .committed ++
        [.acknowledge 0])).map (fun system => system.workerMessages.length) = some 2 := by
    decide +kernel
  obtain ⟨system, reached, two⟩ := Option.map_eq_some_iff.mp counted
  have sequential : delivery.EveryStep (Sequential Sample.startMessage)
      (System.initial Database.empty)
      (Sample.untilStarted .rolledBack ++ Sample.untilStarted .committed ++
        [.acknowledge 0]) := by
    refine delivery.everyStep_of_forall _ ?_
    simp [Sample.untilStarted, Sequential]
  exact ⟨system, reached, two, (start_is_resumable rfl sequential reached).1⟩

end EchoProcessing.Orchestrator
