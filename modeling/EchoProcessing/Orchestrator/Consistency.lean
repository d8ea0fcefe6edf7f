/-
What holds in every reachable state of the delivery system.

Rows are only added and their assignments never change, so whatever a message or a
detached copy says about a row stays true. That a row which is done was reported
survives stale saves, because those write a state that is not done.
-/

import EchoProcessing.Orchestrator.Delivery

namespace EchoProcessing.Orchestrator

open EchoWorkerRepository EchoWorkerService

/-- Nothing that refers to a row of the first database dangles in the second. -/
structure Database.Extends (db next : Database) : Prop where
  copies : ∀ copy, db.Copies copy → next.Copies copy
  orchestrator : ∀ processingId row,
    EchoOrchestratorRepository.findByProcessingId db processingId = some row →
      EchoOrchestratorRepository.findByProcessingId next processingId = some row

theorem Database.Extends.refl (db : Database) : db.Extends db :=
  { copies := fun _ copies => copies
    orchestrator := fun _ _ found => found }

theorem extends_save {db : Database} {copy : EchoWorker} (copies : db.Copies copy) :
    db.Extends (save db copy) :=
  { copies := fun other otherCopies => (copies_save_iff copies other).mpr otherCopies
    orchestrator := fun _ _ found => found }

theorem extends_of_orchestrator_append {db next : Database} {row : EchoOrchestrator}
    (sameWorkers : next.workers = db.workers)
    (rows : next.orchestrators.rows = db.orchestrators.rows ++ [row]) : db.Extends next :=
  { copies := by
      intro copy copies
      unfold Database.Copies
      rw [sameWorkers]
      exact copies
    orchestrator := by
      intro processingId found foundEq
      rw [EchoOrchestratorRepository.findByProcessingId_eq_some_iff] at foundEq ⊢
      rw [rows]
      exact ⟨List.mem_append_left _ foundEq.1, foundEq.2⟩ }

theorem extends_of_workers_append {db next : Database} {workers : List EchoWorker}
    (sameOrchestrators : next.orchestrators = db.orchestrators)
    (rows : next.workers.rows = db.workers.rows ++ workers) : db.Extends next :=
  { copies := by
      rintro copy ⟨row, member, same⟩
      exact ⟨row, rows ▸ List.mem_append_left _ member, same⟩
    orchestrator := by
      intro processingId row found
      unfold EchoOrchestratorRepository.findByProcessingId
      rw [sameOrchestrators]
      exact found }

/-- The orchestrator row that the message of a handler needs, once it was created. -/
def Handler.Ready (db : Database) : Handler → Prop
  | .idle => True
  | .received _ => True
  | .orchestrated message _ => ∃ row,
      EchoOrchestratorRepository.findByProcessingId db message.processingId = some row
  | .starting _ _ workers => ∀ copy ∈ workers, db.Copies copy

theorem Handler.Ready.extend {db next : Database} {phase : Handler} (ready : phase.Ready db)
    (grown : db.Extends next) : phase.Ready next := by
  cases phase with
  | idle => trivial
  | received message => trivial
  | orchestrated message geoTransform =>
      obtain ⟨row, found⟩ := ready
      exact ⟨row, grown.orchestrator _ _ found⟩
  | starting message totalWorkers workers =>
      exact fun copy member => grown.copies copy (ready copy member)

/-- A callback that was delivered for the row and whose tile the row now carries. -/
def Reported (delivered : List EchoWorkerCallbackMessage) (row : EchoWorker) : Prop :=
  ∃ message ∈ delivered, message.workerId = row.workerId ∧
    message.processingId = row.processingId ∧ row.tileURL = some message.imageURL

theorem Reported.append {delivered : List EchoWorkerCallbackMessage} {row : EchoWorker}
    (reported : Reported delivered row) (message : EchoWorkerCallbackMessage) :
    Reported (delivered ++ [message]) row := by
  obtain ⟨earlier, member, facts⟩ := reported
  exact ⟨earlier, List.mem_append_left _ member, facts⟩

structure Consistent (system : System) : Prop where
  ready : ∀ handler, (system.handlers handler).Ready system.db
  orchestrator : ∀ row ∈ system.db.workers.rows, ∃ found,
    EchoOrchestratorRepository.findByProcessingId system.db row.processingId = some found
  workerMessages : ∀ message ∈ system.workerMessages, ∃ row ∈ system.db.workers.rows,
    row.workerId = message.workerId ∧ row.processingId = message.processingId
  callbackMessages : ∀ message ∈ system.callbackMessages, ∃ source ∈ system.workerMessages,
    message = source.callback
  delivered : ∀ message ∈ system.delivered, message ∈ system.callbackMessages
  done : ∀ row ∈ system.db.workers.rows, row.state = .done → Reported system.delivered row

theorem consistent_initial : Consistent (System.initial Database.empty) :=
  { ready := fun _ => trivial
    orchestrator := fun _ member => by cases member
    workerMessages := fun _ member => by cases member
    callbackMessages := fun _ member => by cases member
    delivered := fun _ member => by cases member
    done := fun _ member => by cases member }

theorem Consistent.setHandler {system : System} (consistent : Consistent system) (handler : ℕ)
    {phase : Handler} (ready : phase.Ready system.db) :
    Consistent (system.setHandler handler phase) :=
  { consistent with
    ready := (Function.forall_update_iff system.handlers
      (fun _ current => current.Ready system.db)).mpr
      ⟨ready, fun other _ => consistent.ready other⟩ }

theorem Consistent.setDatabase {system : System} (consistent : Consistent system)
    {next : Database} (grown : system.db.Extends next)
    (orchestrator : ∀ row ∈ next.workers.rows, ∃ found,
      EchoOrchestratorRepository.findByProcessingId next row.processingId = some found)
    (done : ∀ row ∈ next.workers.rows, row.state = .done → Reported system.delivered row) :
    Consistent { system with db := next } :=
  { ready := fun handler => (consistent.ready handler).extend grown
    orchestrator := orchestrator
    workerMessages := by
      intro message member
      obtain ⟨row, rowMember, sameWorker, sameProcessing⟩ :=
        consistent.workerMessages message member
      obtain ⟨other, otherMember, workerEq, processingEq⟩ :=
        row_of_copies (grown.copies row (Database.copies_of_mem rowMember))
      exact ⟨other, otherMember, workerEq.trans sameWorker, processingEq.trans sameProcessing⟩
    callbackMessages := consistent.callbackMessages
    delivered := consistent.delivered
    done := done }

theorem Consistent.publishWorker {system : System} (consistent : Consistent system)
    {copy : EchoWorker} (copies : system.db.Copies copy) (totalWorkers : ℤ) :
    Consistent { system with
      workerMessages := system.workerMessages ++ [workerMessage copy totalWorkers] } :=
  { consistent with
    workerMessages := by
      intro message member
      rcases List.mem_append.mp member with earlier | added
      · exact consistent.workerMessages message earlier
      · rw [List.mem_singleton.mp added]
        exact row_of_copies copies
    callbackMessages := by
      intro message member
      obtain ⟨source, sourceMember, same⟩ := consistent.callbackMessages message member
      exact ⟨source, List.mem_append_left _ sourceMember, same⟩ }

theorem Consistent.deliver {system : System} (consistent : Consistent system)
    {message : EchoWorkerCallbackMessage} (published : message ∈ system.callbackMessages) :
    Consistent { system with delivered := system.delivered ++ [message] } :=
  { consistent with
    delivered := by
      intro other member
      rcases List.mem_append.mp member with earlier | added
      · exact consistent.delivered other earlier
      · rw [List.mem_singleton.mp added]
        exact published
    done := fun row member isDone => (consistent.done row member isDone).append message }

private theorem orchestrator_save {db : Database} {copy : EchoWorker} (copies : db.Copies copy)
    (all : ∀ row ∈ db.workers.rows, ∃ found,
      EchoOrchestratorRepository.findByProcessingId db row.processingId = some found) :
    ∀ row ∈ (save db copy).workers.rows, ∃ found,
      EchoOrchestratorRepository.findByProcessingId (save db copy) row.processingId =
        some found := by
  intro row member
  have source := (copies_save_iff copies row).mp (Database.copies_of_mem member)
  obtain ⟨old, oldMember, _, sameProcessing⟩ := row_of_copies source
  obtain ⟨found, foundEq⟩ := all old oldMember
  exact ⟨found, sameProcessing ▸ foundEq⟩

theorem Consistent.saveStarted {system : System} (consistent : Consistent system)
    {copy : EchoWorker} (copies : system.db.Copies copy) :
    Consistent { system with db := save system.db (started copy) } := by
  have startedCopies : system.db.Copies (started copy) := copies.of_assignment_eq rfl
  apply consistent.setDatabase (extends_save startedCopies)
    (orchestrator_save startedCopies consistent.orchestrator)
  intro row member isDone
  rcases (mem_save_iff startedCopies row).mp member with ⟨old, _⟩ | new
  · exact consistent.done row old isDone
  · subst new
    cases isDone

theorem Consistent.saveFinished {system : System} (consistent : Consistent system)
    {message : EchoWorkerCallbackMessage} {row : EchoWorker}
    (found : findByWorkerId system.db message.workerId = some row)
    (sameProcessing : row.processingId = message.processingId)
    (delivered : message ∈ system.delivered) :
    Consistent { system with db := save system.db (finished row message.imageURL) } := by
  obtain ⟨rowMember, sameWorker⟩ := (findByWorkerId_eq_some_iff _ _ _).mp found
  have copies : system.db.Copies (finished row message.imageURL) :=
    (Database.copies_of_mem rowMember).of_assignment_eq rfl
  apply consistent.setDatabase (extends_save copies)
    (orchestrator_save copies consistent.orchestrator)
  intro other member isDone
  rcases (mem_save_iff copies other).mp member with ⟨old, _⟩ | new
  · exact consistent.done other old isDone
  · subst new
    exact ⟨message, delivered, sameWorker.symm, sameProcessing.symm, rfl⟩

theorem Consistent.row_of_callback {system : System} (consistent : Consistent system)
    {message : EchoWorkerCallbackMessage} (published : message ∈ system.callbackMessages) :
    ∃ row, findByWorkerId system.db message.workerId = some row ∧
      row.processingId = message.processingId := by
  obtain ⟨source, sourceMember, rfl⟩ := consistent.callbackMessages message published
  obtain ⟨row, member, sameWorker, sameProcessing⟩ :=
    consistent.workerMessages source sourceMember
  exact ⟨row, (findByWorkerId_eq_some_iff _ _ _).mpr ⟨member, sameWorker⟩, sameProcessing⟩

/-- All callbacks of one worker report the same tile. -/
theorem Consistent.imageURL_of_callback {system : System} (consistent : Consistent system)
    {message : EchoWorkerCallbackMessage} (published : message ∈ system.callbackMessages) :
    message.imageURL = Image.tileURL message.processingId message.workerId := by
  obtain ⟨source, _, rfl⟩ := consistent.callbackMessages message published
  rfl

theorem Consistent.head_copies {system : System} (consistent : Consistent system) {handler : ℕ}
    {message : EchoStartMessage} {totalWorkers : ℤ} {worker : EchoWorker}
    {rest : List EchoWorker}
    (phase : system.handlers handler = .starting message totalWorkers (worker :: rest)) :
    system.db.Copies worker ∧ ∀ copy ∈ rest, system.db.Copies copy := by
  have ready := consistent.ready handler
  rw [phase] at ready
  exact ⟨ready worker List.mem_cons_self,
    fun copy member => ready copy (List.mem_cons_of_mem worker member)⟩

private theorem consistent_insertion {system : System} (consistent : Consistent system)
    {next : Database} {message : EchoStartMessage} {uuid : ℕ → String} {grid : Grid}
    {workers : List EchoWorker}
    (created : ∃ row, EchoOrchestratorRepository.findByProcessingId system.db
      message.processingId = some row)
    (workersEq : workers = newWorkers message.processingId message.imageURL uuid grid)
    (sameOrchestrators : next.orchestrators = system.db.orchestrators)
    (rows : next.workers.rows = system.db.workers.rows ++ workers) :
    Consistent { system with db := next } := by
  have grown := extends_of_workers_append sameOrchestrators rows
  have fresh : ∀ row ∈ workers, row.processingId = message.processingId ∧ row.state = .init :=
    fun row member => mem_newWorkers (workersEq ▸ member)
  apply consistent.setDatabase grown
  · intro row member
    rcases List.mem_append.mp (rows ▸ member) with old | new
    · obtain ⟨found, foundEq⟩ := consistent.orchestrator row old
      exact ⟨found, grown.orchestrator _ _ foundEq⟩
    · obtain ⟨found, foundEq⟩ := created
      rw [(fresh row new).1]
      exact ⟨found, grown.orchestrator _ _ foundEq⟩
  · intro row member isDone
    rcases List.mem_append.mp (rows ▸ member) with old | new
    · exact consistent.done row old isDone
    · rw [(fresh row new).2] at isDone
      cases isDone

theorem Transition.consistent {system next : System} {event : Event}
    (transition : Transition system event next) (consistent : Consistent system) :
    Consistent next := by
  cases transition with
  | receive idle => exact consistent.setHandler _ trivial
  | giveUp own => exact consistent.setHandler _ trivial
  | orchestratorFound phase transform found => exact consistent.setHandler _ ⟨_, found⟩
  | @orchestratorInserted handler message geoTransform database row phase transform missing
      sameWorkers rowKey rows =>
      have grown := extends_of_orchestrator_append sameWorkers rows
      have kept : Consistent { system with db := database } := by
        apply consistent.setDatabase grown
        · intro other member
          obtain ⟨found, foundEq⟩ := consistent.orchestrator other (sameWorkers ▸ member)
          exact ⟨found, grown.orchestrator _ _ foundEq⟩
        · intro other member isDone
          exact consistent.done other (sameWorkers ▸ member) isDone
      apply kept.setHandler
      exact ⟨row, (EchoOrchestratorRepository.findByProcessingId_eq_some_iff _ _ _).mpr
        ⟨rows ▸ List.mem_append_right _ (List.mem_singleton_self row), rowKey⟩⟩
  | workersRead phase gridEq present =>
      apply consistent.setHandler
      intro copy member
      exact Database.copies_of_mem
        ((mem_ofProcessing _ _ _).mp ((Scan.mem_order _ _ _).mp member)).1
  | @workersInserted handler strategy uuid message geoTransform database scan grid workers phase
      gridEq absent workersEq sameOrchestrators rows =>
      have ready := consistent.ready handler
      rw [phase] at ready
      have kept := consistent_insertion consistent ready workersEq sameOrchestrators rows
      have logged : Consistent { system with
          db := database, insertions := system.insertions ++ [workers] } := { kept with }
      apply logged.setHandler
      intro copy member
      exact Database.copies_of_mem (rows ▸ List.mem_append_right _ member)
  | startSkipped phase leftInit =>
      exact consistent.setHandler _ (consistent.head_copies phase).2
  | @startCommitted handler strategy message totalWorkers worker rest phase initial =>
      obtain ⟨copies, restCopies⟩ := consistent.head_copies phase
      have startedCopies : system.db.Copies (started worker) := copies.of_assignment_eq rfl
      have kept := (consistent.publishWorker copies totalWorkers).saveStarted copies
      apply kept.setHandler
      intro copy member
      exact (copies_save_iff startedCopies copy).mpr (restCopies copy member)
  | startRolledBack phase initial =>
      exact (consistent.publishWorker (consistent.head_copies phase).1 _).setHandler _ trivial
  | @acknowledge handler message totalWorkers phase =>
      have logged : Consistent { system with
          acknowledged := system.acknowledged ++ [message] } := { consistent with }
      exact logged.setHandler _ trivial
  | @work message published =>
      exact
        { consistent with
          callbackMessages := by
            intro other member
            rcases List.mem_append.mp member with earlier | added
            · exact consistent.callbackMessages other earlier
            · exact ⟨message, published, List.mem_singleton.mp added⟩
          delivered := fun other member =>
            List.mem_append_left _ (consistent.delivered other member) }
  | callbackDropped published => exact consistent.deliver published
  | @callbackCommitted message scan row merge published found =>
      obtain ⟨other, otherFound, sameProcessing⟩ := consistent.row_of_callback published
      have same : other = row := Option.some.inj (otherFound.symm.trans found)
      subst same
      have kept := (consistent.deliver published).saveFinished found sameProcessing
        (List.mem_append_right _ (List.mem_singleton_self message))
      exact { kept with }
  | callbackRolledBack published => exact { consistent.deliver published with }

theorem consistent_of_runs {events : List Event} {system : System}
    (reached : delivery.Runs (System.initial Database.empty) events system) :
    Consistent system :=
  reached.invariant
    (fun _ _ _ consistent stepped => (step_transition stepped).consistent consistent)
    consistent_initial

end EchoProcessing.Orchestrator
