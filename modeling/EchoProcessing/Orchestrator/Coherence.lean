/-
What holds in every reachable state of the statement-level system.

Detached copies and open transactions refer to committed rows: rows are only added
and their assignments never change, whatever is lost of their states. Every message
in flight names such a row.
-/

import EchoProcessing.Orchestrator.GridRows
import EchoProcessing.Orchestrator.Sessions

namespace EchoProcessing.Orchestrator.Sessions

open EchoWorkerRepository EchoWorkerService

/-- What a handler has computed comes from its message, and the copies that it still
holds are copies of committed rows. -/
def StartPhase.Refers (db : Database) : StartPhase → Prop
  | .searched message geoTransform _ => EchoService.geoTransformOf message = .ok geoTransform
  | .orchestrated message geoTransform => EchoService.geoTransformOf message = .ok geoTransform
  | .guarded message grid _ => GridFor message grid
  | .inserted message workers => ∃ uuid grid, GridFor message grid ∧
      workers = newWorkers message.processingId message.imageURL uuid grid
  | .starting _ _ workers => ∀ copy ∈ workers, db.Copies copy
  | .saved _ _ worker rest => db.Copies worker ∧ ∀ copy ∈ rest, db.Copies copy
  | .published _ _ worker rest => db.Copies worker ∧ ∀ copy ∈ rest, db.Copies copy
  | _ => True

/-- The row that an open callback transaction has read. -/
def CallbackPhase.row? : CallbackPhase → Option (EchoWorkerCallbackMessage × EchoWorker)
  | .loaded message row => some (message, row)
  | .flushed message row => some (message, row)
  | .queried message row _ => some (message, row)
  | .published message row => some (message, row)
  | _ => none

structure CallbackPhase.Refers (db : Database) (sent : List EchoWorkerCallbackMessage)
    (phase : CallbackPhase) : Prop where
  delivered : ∀ message, phase = .delivered message → message ∈ sent
  read : ∀ message row, phase.row? = some (message, row) →
    message ∈ sent ∧ db.Copies row ∧ row.workerId = message.workerId

structure Coherent (system : System) : Prop where
  starts : ∀ handler, (system.starts handler).Refers system.db
  callbacks : ∀ transaction,
    (system.callbacks transaction).Refers system.db system.callbackMessages
  workerMessages : ∀ message ∈ system.workerMessages, ∃ row ∈ system.db.workers.rows,
    row.workerId = message.workerId ∧ row.processingId = message.processingId
  callbackMessages : ∀ message ∈ system.callbackMessages, ∃ source ∈ system.workerMessages,
    message = source.callback
  reported : ∀ message ∈ system.reported, message ∈ system.callbackMessages

private theorem StartPhase.Refers.grow {db next : Database} {phase : StartPhase}
    (refers : phase.Refers db) (grown : ∀ copy, db.Copies copy → next.Copies copy) :
    phase.Refers next := by
  cases phase with
  | starting message totalWorkers workers =>
      exact fun copy member => grown copy (refers copy member)
  | saved message totalWorkers worker rest =>
      exact ⟨grown worker refers.1, fun copy member => grown copy (refers.2 copy member)⟩
  | published message totalWorkers worker rest =>
      exact ⟨grown worker refers.1, fun copy member => grown copy (refers.2 copy member)⟩
  | _ => exact refers

private theorem CallbackPhase.Refers.grow {db next : Database}
    {sent later : List EchoWorkerCallbackMessage}
    {phase : CallbackPhase} (refers : phase.Refers db sent)
    (grown : ∀ copy, db.Copies copy → next.Copies copy)
    (more : ∀ message ∈ sent, message ∈ later) : phase.Refers next later :=
  { delivered := fun message same => more message (refers.delivered message same)
    read := by
      intro message row same
      obtain ⟨member, copies, sameWorker⟩ := refers.read message row same
      exact ⟨more message member, grown row copies, sameWorker⟩ }

private theorem CallbackPhase.refers_of_none {db : Database} {sent : List EchoWorkerCallbackMessage}
    {phase : CallbackPhase} (notDelivered : ∀ message, phase ≠ .delivered message)
    (noRow : phase.row? = none) : phase.Refers db sent :=
  { delivered := fun message same => absurd same (notDelivered message)
    read := by
      intro message row same
      rw [noRow] at same
      cases same }

theorem CallbackPhase.Refers.advance {db : Database} {sent : List EchoWorkerCallbackMessage}
    {phase later : CallbackPhase} (refers : phase.Refers db sent)
    (notDelivered : ∀ message, later ≠ .delivered message) (same : later.row? = phase.row?) :
    later.Refers db sent :=
  { delivered := fun message equal => absurd equal (notDelivered message)
    read := fun message row equal => refers.read message row (same ▸ equal) }

theorem coherent_initial (db : Database) : Coherent (System.initial db) :=
  { starts := fun _ => trivial
    callbacks := fun _ => CallbackPhase.refers_of_none (fun _ same => by cases same) rfl
    workerMessages := fun _ member => by cases member
    callbackMessages := fun _ member => by cases member
    reported := fun _ member => by cases member }

theorem Coherent.setStart {system : System} (coherent : Coherent system) (handler : ℕ)
    {phase : StartPhase} (refers : phase.Refers system.db) :
    Coherent (system.setStart handler phase) :=
  { coherent with
    starts := (Function.forall_update_iff system.starts
      (fun _ current => current.Refers system.db)).mpr
      ⟨refers, fun other _ => coherent.starts other⟩ }

theorem Coherent.setCallback {system : System} (coherent : Coherent system) (transaction : ℕ)
    {phase : CallbackPhase} (refers : phase.Refers system.db system.callbackMessages) :
    Coherent (system.setCallback transaction phase) :=
  { coherent with
    callbacks := (Function.forall_update_iff system.callbacks
      (fun _ current => current.Refers system.db system.callbackMessages)).mpr
      ⟨refers, fun other _ => coherent.callbacks other⟩ }

theorem Coherent.setDatabase {system : System} (coherent : Coherent system) {next : Database}
    (grown : ∀ copy, system.db.Copies copy → next.Copies copy) :
    Coherent { system with db := next } :=
  { coherent with
    starts := fun handler => (coherent.starts handler).grow grown
    callbacks := fun transaction =>
      (coherent.callbacks transaction).grow grown (fun _ member => member)
    workerMessages := by
      intro message member
      obtain ⟨row, rowMember, sameWorker, sameProcessing⟩ :=
        coherent.workerMessages message member
      obtain ⟨other, otherMember, workerEq, processingEq⟩ :=
        row_of_copies (grown row (Database.copies_of_mem rowMember))
      exact ⟨other, otherMember, workerEq.trans sameWorker, processingEq.trans sameProcessing⟩ }

private theorem grown_of_append {db next : Database} {workers : List EchoWorker}
    (rows : next.workers.rows = db.workers.rows ++ workers) (copy : EchoWorker)
    (copies : db.Copies copy) : next.Copies copy := by
  obtain ⟨row, member, same⟩ := copies
  exact ⟨row, rows ▸ List.mem_append_left _ member, same⟩

theorem Coherent.publishWorker {system : System} (coherent : Coherent system)
    {worker : EchoWorker} (copies : system.db.Copies worker) (totalWorkers : ℤ) :
    Coherent { system with
      workerMessages := system.workerMessages ++ [workerMessage worker totalWorkers] } :=
  { coherent with
    workerMessages := by
      intro message member
      rcases List.mem_append.mp member with earlier | added
      · exact coherent.workerMessages message earlier
      · rw [List.mem_singleton.mp added]
        exact row_of_copies copies
    callbackMessages := by
      intro message member
      obtain ⟨source, sourceMember, same⟩ := coherent.callbackMessages message member
      exact ⟨source, List.mem_append_left _ sourceMember, same⟩ }

theorem Coherent.work {system : System} (coherent : Coherent system)
    {message : EchoWorkerMessage} (published : message ∈ system.workerMessages) :
    Coherent { system with
      callbackMessages := system.callbackMessages ++ [message.callback] } :=
  { coherent with
    callbacks := fun transaction => (coherent.callbacks transaction).grow
      (fun _ copies => copies) (fun _ member => List.mem_append_left _ member)
    callbackMessages := by
      intro other member
      rcases List.mem_append.mp member with earlier | added
      · exact coherent.callbackMessages other earlier
      · exact ⟨message, published, List.mem_singleton.mp added⟩
    reported := fun other member => List.mem_append_left _ (coherent.reported other member) }

theorem Coherent.open_callback {system : System} (coherent : Coherent system) {transaction : ℕ}
    {phase : CallbackPhase} (current : system.callbacks transaction = phase) :
    phase.Refers system.db system.callbackMessages :=
  current ▸ coherent.callbacks transaction

theorem Coherent.open_start {system : System} (coherent : Coherent system) {handler : ℕ}
    {phase : StartPhase} (current : system.starts handler = phase) :
    phase.Refers system.db :=
  current ▸ coherent.starts handler

theorem Coherent.committable {system : System} (coherent : Coherent system) {transaction : ℕ}
    {message : EchoWorkerCallbackMessage} {row : EchoWorker}
    (phase : system.callbacks transaction = .queried message row false ∨
      system.callbacks transaction = .published message row) :
    message ∈ system.callbackMessages ∧ system.db.Copies (finished row message.imageURL) ∧
      row.workerId = message.workerId := by
  have read : message ∈ system.callbackMessages ∧ system.db.Copies row ∧
      row.workerId = message.workerId := by
    rcases phase with queried | published
    · exact (coherent.open_callback queried).read message row rfl
    · exact (coherent.open_callback published).read message row rfl
  exact ⟨read.1, read.2.1.of_assignment_eq rfl, read.2.2⟩

theorem Coherent.source_of_callback {system : System} (coherent : Coherent system)
    {message : EchoWorkerCallbackMessage} (sent : message ∈ system.callbackMessages)
    {row : EchoWorker} (copies : system.db.Copies row)
    (sameWorker : row.workerId = message.workerId) :
    (∃ source ∈ system.workerMessages, source.workerId = row.workerId ∧
        source.processingId = row.processingId) ∧
      message.processingId = row.processingId ∧
      message.imageURL = Image.tileURL row.processingId row.workerId := by
  obtain ⟨source, sourceMember, rfl⟩ := coherent.callbackMessages message sent
  obtain ⟨target, targetMember, targetWorker, targetProcessing⟩ :=
    coherent.workerMessages source sourceMember
  have sourceWorker : source.workerId = row.workerId := sameWorker.symm
  have sameProcessing : source.processingId = row.processingId := by
    rw [← targetProcessing]
    exact processingId_of_assignment
      (copies.assignment_eq targetMember (targetWorker.trans sourceWorker))
  refine ⟨⟨source, sourceMember, sourceWorker, sameProcessing⟩, sameProcessing, ?_⟩
  rw [← sameProcessing, ← sourceWorker]
  rfl

theorem Transition.coherent {system next : System} {event : Event}
    (transition : Transition system event next) (coherent : Coherent system) :
    Coherent next := by
  cases transition with
  | receive idle => exact coherent.setStart _ trivial
  | giveUp handler => exact coherent.setStart _ trivial
  | searched phase transform present => exact coherent.setStart _ transform
  | orchestratorFound phase =>
      have transform := coherent.open_start phase
      exact coherent.setStart _ transform
  | @orchestratorCommitted handler message geoTransform database phase sameWorkers =>
      have grown : ∀ copy, system.db.Copies copy → database.Copies copy := by
        intro copy copies
        unfold Database.Copies
        rw [sameWorkers]
        exact copies
      have transform := coherent.open_start phase
      exact (coherent.setDatabase grown).setStart _ transform
  | guarded phase gridEq => exact coherent.setStart _ ⟨_, coherent.open_start phase, gridEq⟩
  | workersRead phase =>
      apply coherent.setStart
      intro copy member
      exact Database.copies_of_mem
        ((mem_ofProcessing _ _ _).mp ((Scan.mem_order _ _ _).mp member)).1
  | inserted phase => exact coherent.setStart _ ⟨_, _, coherent.open_start phase, rfl⟩
  | workersCommitted phase rows =>
      apply (coherent.setDatabase (grown_of_append rows)).setStart
      intro copy member
      exact Database.copies_of_mem (rows ▸ List.mem_append_right _ member)
  | skipped phase =>
      have refers := coherent.open_start phase
      exact coherent.setStart _ (fun copy member => refers copy (List.mem_cons_of_mem _ member))
  | @saved handler strategy message totalWorkers worker rest phase =>
      have refers := coherent.open_start phase
      exact coherent.setStart _ ⟨refers worker List.mem_cons_self,
        fun copy member => refers copy (List.mem_cons_of_mem _ member)⟩
  | workerPublished phase =>
      have refers := coherent.open_start phase
      exact (coherent.publishWorker refers.1 _).setStart _ refers
  | @workerCommitted handler message totalWorkers worker rest phase =>
      have refers := coherent.open_start phase
      have startedCopies : system.db.Copies (started worker) := refers.1.of_assignment_eq rfl
      have grown : ∀ copy, system.db.Copies copy →
          (save system.db (started worker)).Copies copy :=
        fun copy copies => (copies_save_iff startedCopies copy).mpr copies
      apply (coherent.setDatabase grown).setStart
      exact fun copy member => grown copy (refers.2 copy member)
  | @acknowledged handler message totalWorkers phase =>
      have logged : Coherent { system with
          acknowledged := system.acknowledged ++ [message] } := { coherent with }
      exact logged.setStart _ trivial
  | work published => exact coherent.work published
  | delivered idle published =>
      exact coherent.setCallback _
        { delivered := fun _ same => by cases same; exact published
          read := fun _ _ same => by cases same }
  | missing phase absent =>
      exact coherent.setCallback _
        (CallbackPhase.refers_of_none (fun _ same => by cases same) rfl)
  | @loaded transaction message row phase found =>
      obtain ⟨member, sameWorker⟩ := (findByWorkerId_eq_some_iff _ _ _).mp found
      have sent := (coherent.open_callback phase).delivered message rfl
      exact coherent.setCallback _
        { delivered := fun _ same => by cases same
          read := by
            intro other otherRow same
            cases same
            exact ⟨sent, Database.copies_of_mem member, sameWorker⟩ }
  | flushed phase =>
      exact coherent.setCallback _
        ((coherent.open_callback phase).advance (fun _ same => by cases same) rfl)
  | queried phase =>
      exact coherent.setCallback _
        ((coherent.open_callback phase).advance (fun _ same => by cases same) rfl)
  | @mergePublished transaction message row scan merge phase returned =>
      have logged : Coherent { system with
          mergeMessages := system.mergeMessages ++ [merge] } := { coherent with }
      exact logged.setCallback _
        ((coherent.open_callback phase).advance (fun _ same => by cases same) rfl)
  | @reportCommitted transaction message row phase =>
      obtain ⟨sent, copies, sameWorker⟩ := coherent.committable phase
      have grown : ∀ copy, system.db.Copies copy → (system.view message row).Copies copy :=
        fun copy other => (copies_save_iff copies copy).mpr other
      have stored := coherent.setDatabase grown
      have logged : Coherent { system with
          db := system.view message row
          reported := system.reported ++ [message] } :=
        { stored with
          reported := by
            intro other member
            rcases List.mem_append.mp member with earlier | added
            · exact coherent.reported other earlier
            · rw [List.mem_singleton.mp added]
              exact sent }
      exact logged.setCallback _
        (CallbackPhase.refers_of_none (fun _ same => by cases same) rfl)
  | dropped cause =>
      exact coherent.setCallback _
        (CallbackPhase.refers_of_none (fun _ same => by cases same) rfl)

end EchoProcessing.Orchestrator.Sessions
