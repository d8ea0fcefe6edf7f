/-
The orchestrator statement by statement, under READ COMMITTED.

A transaction reads the committed rows together with its own pending write, which
the other transactions see from its commit on. A publish is visible at once. Any
number of start handlers and of callback transactions may be open at a time, each
in the phase that it has reached.
-/

import EchoProcessing.Orchestrator.Delivery

namespace EchoProcessing.Orchestrator.Sessions

open EchoWorkerRepository EchoWorkerService

inductive StartPhase where
  | idle
  | received (message : EchoStartMessage)
  /-- `createOrchestrator` knows whether the row is there. -/
  | searched (message : EchoStartMessage) (geoTransform : GeoTransform) (present : Bool)
  | orchestrated (message : EchoStartMessage) (geoTransform : GeoTransform)
  /-- `createWorkers` knows whether rows are there. -/
  | guarded (message : EchoStartMessage) (grid : Grid) (present : Bool)
  /-- The insertion of the workers is pending. -/
  | inserted (message : EchoStartMessage) (workers : List EchoWorker)
  | starting (message : EchoStartMessage) (totalWorkers : ℤ) (workers : List EchoWorker)
  /-- `startEchoWorker` has saved the first copy; the write is pending. -/
  | saved (message : EchoStartMessage) (totalWorkers : ℤ) (worker : EchoWorker)
      (rest : List EchoWorker)
  /-- The message is published while the write is still pending. -/
  | published (message : EchoStartMessage) (totalWorkers : ℤ) (worker : EchoWorker)
      (rest : List EchoWorker)
deriving DecidableEq

/-- A callback transaction keeps the row as it was when it was read. -/
inductive CallbackPhase where
  | idle
  | delivered (message : EchoWorkerCallbackMessage)
  | loaded (message : EchoWorkerCallbackMessage) (row : EchoWorker)
  /-- The row is done in the view of this transaction. -/
  | flushed (message : EchoWorkerCallbackMessage) (row : EchoWorker)
  | queried (message : EchoWorkerCallbackMessage) (row : EchoWorker) (complete : Bool)
  | published (message : EchoWorkerCallbackMessage) (row : EchoWorker)
  | committed (message : EchoWorkerCallbackMessage)
deriving DecidableEq

structure System where
  db : Database
  starts : ℕ → StartPhase
  callbacks : ℕ → CallbackPhase
  workerMessages : List EchoWorkerMessage
  callbackMessages : List EchoWorkerCallbackMessage
  mergeMessages : List EchoMergeMessage
  /-- Callbacks whose update was committed. -/
  reported : List EchoWorkerCallbackMessage
  acknowledged : List EchoStartMessage

def System.initial (db : Database) : System :=
  { db := db
    starts := fun _ => .idle
    callbacks := fun _ => .idle
    workerMessages := []
    callbackMessages := []
    mergeMessages := []
    reported := []
    acknowledged := [] }

def System.setStart (system : System) (handler : ℕ) (phase : StartPhase) : System :=
  { system with starts := Function.update system.starts handler phase }

def System.setCallback (system : System) (transaction : ℕ) (phase : CallbackPhase) : System :=
  { system with callbacks := Function.update system.callbacks transaction phase }

inductive Event where
  | receive (handler : ℕ) (message : EchoStartMessage)
  | findOrchestrator (handler : ℕ)
  | commitOrchestrator (handler : ℕ)
  | existsWorkers (handler : ℕ)
  | findWorkers (handler : ℕ) (scan : Scan)
  | insertWorkers (handler : ℕ) (strategy : ErrorStrategy) (uuid : ℕ → String)
  | commitWorkers (handler : ℕ)
  | saveWorker (handler : ℕ) (strategy : ErrorStrategy)
  | publishWorker (handler : ℕ)
  | commitWorker (handler : ℕ)
  | acknowledge (handler : ℕ)
  /-- The handler ends, its open transaction is rolled back: an exception, an index that
  refuses the commit, or a crash. -/
  | rollBackStart (handler : ℕ)
  | work (message : EchoWorkerMessage)
  | deliver (transaction : ℕ) (message : EchoWorkerCallbackMessage)
  | read (transaction : ℕ)
  | write (transaction : ℕ)
  | query (transaction : ℕ)
  | publish (transaction : ℕ) (scan : Scan)
  | commit (transaction : ℕ)
  | rollBackCallback (transaction : ℕ)

namespace System

/-! ### The statements of `EchoService.start` -/

def findOrchestrator (system : System) (handler : ℕ) : Option System :=
  match system.starts handler with
  | .received message =>
      match EchoService.geoTransformOf message with
      | .error _ => some (system.setStart handler .idle)
      | .ok geoTransform =>
          some (system.setStart handler (.searched message geoTransform
            (EchoOrchestratorRepository.findByProcessingId system.db
              message.processingId).isSome))
  | _ => none

/-- An insertion that the database refuses cannot commit. -/
def commitOrchestrator (system : System) (handler : ℕ) : Option System :=
  match system.starts handler with
  | .searched message geoTransform true =>
      some (system.setStart handler (.orchestrated message geoTransform))
  | .searched message geoTransform false =>
      match EchoOrchestratorRepository.save system.db
          (EchoOrchestratorService.newOrchestrator message.processingId message.imageURL
            message.imageSizeX message.imageSizeY geoTransform) with
      | .error _ => none
      | .ok next =>
          some ({ system with db := next }.setStart handler (.orchestrated message geoTransform))
  | _ => none

def existsWorkers (system : System) (handler : ℕ) : Option System :=
  match system.starts handler with
  | .orchestrated message geoTransform =>
      match EchoService.gridOf message geoTransform with
      | .error _ => some (system.setStart handler .idle)
      | .ok grid =>
          some (system.setStart handler (.guarded message grid
            (existsByProcessingId system.db message.processingId)))
  | _ => none

def findWorkers (system : System) (handler : ℕ) (scan : Scan) : Option System :=
  match system.starts handler with
  | .guarded message _ true =>
      let workers := findByProcessingId scan system.db message.processingId
      some (system.setStart handler (.starting message workers.length workers))
  | _ => none

def insertWorkers (system : System) (handler : ℕ) (strategy : ErrorStrategy)
    (uuid : ℕ → String) : Option System :=
  match system.starts handler with
  | .guarded message grid false =>
      match applyErrorStrategy strategy .afterInitWorkersInDatabase with
      | .error _ => some (system.setStart handler .idle)
      | .ok _ =>
          some (system.setStart handler (.inserted message
            (newWorkers message.processingId message.imageURL uuid grid)))
  | _ => none

def commitWorkers (system : System) (handler : ℕ) : Option System :=
  match system.starts handler with
  | .inserted message workers =>
      match saveAll system.db workers with
      | .error _ => none
      | .ok next =>
          some ({ system with db := next }.setStart handler
            (.starting message workers.length workers))
  | _ => none

/-- The state is tested on the copy; only a copy in INIT opens a write. -/
def saveWorker (system : System) (handler : ℕ) (strategy : ErrorStrategy) : Option System :=
  match system.starts handler with
  | .starting message totalWorkers (worker :: rest) =>
      if worker.state = .init then
        match applyErrorStrategy strategy .afterProcessingWorkerInDatabase with
        | .error _ => some (system.setStart handler .idle)
        | .ok _ => some (system.setStart handler (.saved message totalWorkers worker rest))
      else some (system.setStart handler (.starting message totalWorkers rest))
  | _ => none

def publishWorker (system : System) (handler : ℕ) : Option System :=
  match system.starts handler with
  | .saved message totalWorkers worker rest =>
      some ({ system with
          workerMessages := system.workerMessages ++ [workerMessage worker totalWorkers]
        }.setStart handler (.published message totalWorkers worker rest))
  | _ => none

/-- The row write of `save` reaches the database here, all columns from the copy. -/
def commitWorker (system : System) (handler : ℕ) : Option System :=
  match system.starts handler with
  | .published message totalWorkers worker rest =>
      some ({ system with db := save system.db (started worker) }.setStart handler
        (.starting message totalWorkers rest))
  | _ => none

def acknowledge (system : System) (handler : ℕ) : Option System :=
  match system.starts handler with
  | .starting message _ [] =>
      some ({ system with acknowledged := system.acknowledged ++ [message] }.setStart
        handler .idle)
  | _ => none

/-! ### The statements of `callbackEchoWorker` -/

def work (system : System) (message : EchoWorkerMessage) : Option System :=
  if message ∈ system.workerMessages then
    some { system with callbackMessages := system.callbackMessages ++ [message.callback] }
  else none

def deliver (system : System) (transaction : ℕ) (message : EchoWorkerCallbackMessage) :
    Option System :=
  if system.callbacks transaction = .idle ∧ message ∈ system.callbackMessages then
    some (system.setCallback transaction (.delivered message))
  else none

/-- Without a row the transaction only logs, and commits nothing. -/
def read (system : System) (transaction : ℕ) : Option System :=
  match system.callbacks transaction with
  | .delivered message =>
      match findByWorkerId system.db message.workerId with
      | none => some (system.setCallback transaction (.committed message))
      | some row => some (system.setCallback transaction (.loaded message row))
  | _ => none

def write (system : System) (transaction : ℕ) : Option System :=
  match system.callbacks transaction with
  | .loaded message row => some (system.setCallback transaction (.flushed message row))
  | _ => none

/-- What a transaction sees: the committed rows and its own row done. -/
def view (system : System) (message : EchoWorkerCallbackMessage) (row : EchoWorker) : Database :=
  save system.db (finished row message.imageURL)

def query (system : System) (transaction : ℕ) : Option System :=
  match system.callbacks transaction with
  | .flushed message row =>
      some (system.setCallback transaction
        (.queried message row (allDone (system.view message row) message.processingId)))
  | _ => none

def publish (system : System) (transaction : ℕ) (scan : Scan) : Option System :=
  match system.callbacks transaction with
  | .queried message row true =>
      match publishMerge scan (system.view message row) message.processingId
          (finished row message.imageURL) with
      | .error _ => some (system.setCallback transaction .idle)
      | .ok merge =>
          some ({ system with mergeMessages := system.mergeMessages ++ [merge] }.setCallback
            transaction (.published message row))
  | _ => none

def commitReport (system : System) (transaction : ℕ) (message : EchoWorkerCallbackMessage)
    (row : EchoWorker) : System :=
  { system with
    db := system.view message row
    reported := system.reported ++ [message] }.setCallback transaction (.committed message)

def commit (system : System) (transaction : ℕ) : Option System :=
  match system.callbacks transaction with
  | .queried message row false => some (system.commitReport transaction message row)
  | .published message row => some (system.commitReport transaction message row)
  | _ => none

def step (system : System) : Event → Option System
  | .receive handler message =>
      if system.starts handler = .idle then
        some (system.setStart handler (.received message))
      else none
  | .findOrchestrator handler => system.findOrchestrator handler
  | .commitOrchestrator handler => system.commitOrchestrator handler
  | .existsWorkers handler => system.existsWorkers handler
  | .findWorkers handler scan => system.findWorkers handler scan
  | .insertWorkers handler strategy uuid => system.insertWorkers handler strategy uuid
  | .commitWorkers handler => system.commitWorkers handler
  | .saveWorker handler strategy => system.saveWorker handler strategy
  | .publishWorker handler => system.publishWorker handler
  | .commitWorker handler => system.commitWorker handler
  | .acknowledge handler => system.acknowledge handler
  | .rollBackStart handler => some (system.setStart handler .idle)
  | .work message => system.work message
  | .deliver transaction message => system.deliver transaction message
  | .read transaction => system.read transaction
  | .write transaction => system.write transaction
  | .query transaction => system.query transaction
  | .publish transaction scan => system.publish transaction scan
  | .commit transaction => system.commit transaction
  | .rollBackCallback transaction => some (system.setCallback transaction .idle)

end System

/-- Every interleaving of statements, commits, rollbacks and deliveries is a run. -/
def sessions : Machine System Event where
  step := System.step

/-! ### What a step can do -/

/-- One constructor for each thing that an enabled event may do, guards included. -/
inductive Transition (system : System) : Event → System → Prop where
  | receive {handler message} (idle : system.starts handler = .idle) :
      Transition system (.receive handler message) (system.setStart handler (.received message))
  | giveUp {event} (handler : ℕ) : Transition system event (system.setStart handler .idle)
  | searched {handler message geoTransform} (phase : system.starts handler = .received message)
      (transform : EchoService.geoTransformOf message = .ok geoTransform) (present : Bool) :
      Transition system (.findOrchestrator handler)
        (system.setStart handler (.searched message geoTransform present))
  | orchestratorFound {handler message geoTransform}
      (phase : system.starts handler = .searched message geoTransform true) :
      Transition system (.commitOrchestrator handler)
        (system.setStart handler (.orchestrated message geoTransform))
  | orchestratorCommitted {handler message geoTransform next}
      (phase : system.starts handler = .searched message geoTransform false)
      (sameWorkers : next.workers = system.db.workers) :
      Transition system (.commitOrchestrator handler)
        ({ system with db := next }.setStart handler (.orchestrated message geoTransform))
  | guarded {handler message geoTransform grid}
      (phase : system.starts handler = .orchestrated message geoTransform)
      (gridEq : EchoService.gridOf message geoTransform = .ok grid) :
      Transition system (.existsWorkers handler)
        (system.setStart handler (.guarded message grid
          (existsByProcessingId system.db message.processingId)))
  | workersRead {handler message grid} {scan : Scan}
      (phase : system.starts handler = .guarded message grid true) :
      Transition system (.findWorkers handler scan)
        (system.setStart handler (.starting message
          (findByProcessingId scan system.db message.processingId).length
          (findByProcessingId scan system.db message.processingId)))
  | inserted {handler message grid strategy} {uuid : ℕ → String}
      (phase : system.starts handler = .guarded message grid false) :
      Transition system (.insertWorkers handler strategy uuid)
        (system.setStart handler (.inserted message
          (newWorkers message.processingId message.imageURL uuid grid)))
  | workersCommitted {handler message next} {workers : List EchoWorker}
      (phase : system.starts handler = .inserted message workers)
      (rows : next.workers.rows = system.db.workers.rows ++ workers) :
      Transition system (.commitWorkers handler)
        ({ system with db := next }.setStart handler (.starting message workers.length workers))
  | skipped {handler strategy message totalWorkers worker rest}
      (phase : system.starts handler = .starting message totalWorkers (worker :: rest)) :
      Transition system (.saveWorker handler strategy)
        (system.setStart handler (.starting message totalWorkers rest))
  | saved {handler strategy message totalWorkers worker rest}
      (phase : system.starts handler = .starting message totalWorkers (worker :: rest)) :
      Transition system (.saveWorker handler strategy)
        (system.setStart handler (.saved message totalWorkers worker rest))
  | workerPublished {handler message totalWorkers worker rest}
      (phase : system.starts handler = .saved message totalWorkers worker rest) :
      Transition system (.publishWorker handler)
        ({ system with
            workerMessages := system.workerMessages ++ [workerMessage worker totalWorkers]
          }.setStart handler (.published message totalWorkers worker rest))
  | workerCommitted {handler message totalWorkers worker rest}
      (phase : system.starts handler = .published message totalWorkers worker rest) :
      Transition system (.commitWorker handler)
        ({ system with db := save system.db (started worker) }.setStart handler
          (.starting message totalWorkers rest))
  | acknowledged {handler message totalWorkers}
      (phase : system.starts handler = .starting message totalWorkers []) :
      Transition system (.acknowledge handler)
        ({ system with acknowledged := system.acknowledged ++ [message] }.setStart handler .idle)
  | work {message} (published : message ∈ system.workerMessages) :
      Transition system (.work message)
        { system with callbackMessages := system.callbackMessages ++ [message.callback] }
  | delivered {transaction message} (idle : system.callbacks transaction = .idle)
      (published : message ∈ system.callbackMessages) :
      Transition system (.deliver transaction message)
        (system.setCallback transaction (.delivered message))
  | missing {transaction message} (phase : system.callbacks transaction = .delivered message)
      (absent : findByWorkerId system.db message.workerId = none) :
      Transition system (.read transaction)
        (system.setCallback transaction (.committed message))
  | loaded {transaction message row} (phase : system.callbacks transaction = .delivered message)
      (found : findByWorkerId system.db message.workerId = some row) :
      Transition system (.read transaction)
        (system.setCallback transaction (.loaded message row))
  | flushed {transaction message row}
      (phase : system.callbacks transaction = .loaded message row) :
      Transition system (.write transaction)
        (system.setCallback transaction (.flushed message row))
  | queried {transaction message row}
      (phase : system.callbacks transaction = .flushed message row) :
      Transition system (.query transaction)
        (system.setCallback transaction
          (.queried message row (allDone (system.view message row) message.processingId)))
  | mergePublished {transaction message row scan merge}
      (phase : system.callbacks transaction = .queried message row true)
      (returned : publishMerge scan (system.view message row) message.processingId
        (finished row message.imageURL) = .ok merge) :
      Transition system (.publish transaction scan)
        ({ system with mergeMessages := system.mergeMessages ++ [merge] }.setCallback transaction
          (.published message row))
  | reportCommitted {transaction message row}
      (phase : system.callbacks transaction = .queried message row false ∨
        system.callbacks transaction = .published message row) :
      Transition system (.commit transaction) (system.commitReport transaction message row)
  | dropped {event transaction}
      (cause : event = .rollBackCallback transaction ∨
        ∃ message row, system.callbacks transaction = .queried message row true) :
      Transition system event (system.setCallback transaction .idle)

/-! ### Each method as a transition -/

section Methods

variable {system next : System} {handler transaction : ℕ} {scan : Scan} {strategy : ErrorStrategy}

private theorem System.findOrchestrator_transition
    (stepped : system.findOrchestrator handler = some next) :
    Transition system (.findOrchestrator handler) next := by
  unfold System.findOrchestrator at stepped
  split at stepped
  · rename_i message phase
    split at stepped
    · cases stepped
      exact .giveUp handler
    · rename_i geoTransform transform
      cases stepped
      exact .searched phase transform _
  · cases stepped

private theorem System.commitOrchestrator_transition
    (stepped : system.commitOrchestrator handler = some next) :
    Transition system (.commitOrchestrator handler) next := by
  unfold System.commitOrchestrator at stepped
  split at stepped
  · rename_i message geoTransform phase
    cases stepped
    exact .orchestratorFound phase
  · rename_i message geoTransform phase
    split at stepped
    · cases stepped
    · rename_i database inserted
      cases stepped
      exact .orchestratorCommitted phase
        ((EchoOrchestratorRepository.save_eq_ok_iff _ _ _).mp inserted).2.1
  · cases stepped

private theorem System.existsWorkers_transition
    (stepped : system.existsWorkers handler = some next) :
    Transition system (.existsWorkers handler) next := by
  unfold System.existsWorkers at stepped
  split at stepped
  · rename_i message geoTransform phase
    split at stepped
    · cases stepped
      exact .giveUp handler
    · rename_i grid gridEq
      cases stepped
      exact .guarded phase gridEq
  · cases stepped

private theorem System.findWorkers_transition
    (stepped : system.findWorkers handler scan = some next) :
    Transition system (.findWorkers handler scan) next := by
  unfold System.findWorkers at stepped
  split at stepped
  · rename_i message grid phase
    cases stepped
    exact .workersRead phase
  · cases stepped

private theorem System.insertWorkers_transition {uuid : ℕ → String}
    (stepped : system.insertWorkers handler strategy uuid = some next) :
    Transition system (.insertWorkers handler strategy uuid) next := by
  unfold System.insertWorkers at stepped
  split at stepped
  · rename_i message grid phase
    split at stepped
    · cases stepped
      exact .giveUp handler
    · cases stepped
      exact .inserted phase
  · cases stepped

private theorem System.commitWorkers_transition
    (stepped : system.commitWorkers handler = some next) :
    Transition system (.commitWorkers handler) next := by
  unfold System.commitWorkers at stepped
  split at stepped
  · rename_i message workers phase
    split at stepped
    · cases stepped
    · rename_i database inserted
      cases stepped
      exact .workersCommitted phase ((saveAll_eq_ok_iff _ _ _).mp inserted).2
  · cases stepped

private theorem System.saveWorker_transition
    (stepped : system.saveWorker handler strategy = some next) :
    Transition system (.saveWorker handler strategy) next := by
  unfold System.saveWorker at stepped
  split at stepped
  · rename_i message totalWorkers worker rest phase
    split at stepped
    · split at stepped
      · cases stepped
        exact .giveUp handler
      · cases stepped
        exact .saved phase
    · cases stepped
      exact .skipped phase
  · cases stepped

private theorem System.publishWorker_transition
    (stepped : system.publishWorker handler = some next) :
    Transition system (.publishWorker handler) next := by
  unfold System.publishWorker at stepped
  split at stepped
  · rename_i message totalWorkers worker rest phase
    cases stepped
    exact .workerPublished phase
  · cases stepped

private theorem System.commitWorker_transition
    (stepped : system.commitWorker handler = some next) :
    Transition system (.commitWorker handler) next := by
  unfold System.commitWorker at stepped
  split at stepped
  · rename_i message totalWorkers worker rest phase
    cases stepped
    exact .workerCommitted phase
  · cases stepped

private theorem System.acknowledge_transition
    (stepped : system.acknowledge handler = some next) :
    Transition system (.acknowledge handler) next := by
  unfold System.acknowledge at stepped
  split at stepped
  · rename_i message totalWorkers phase
    cases stepped
    exact .acknowledged phase
  · cases stepped

private theorem System.work_transition {message : EchoWorkerMessage}
    (stepped : system.work message = some next) :
    Transition system (.work message) next := by
  unfold System.work at stepped
  split at stepped
  · rename_i published
    cases stepped
    exact .work published
  · cases stepped

private theorem System.deliver_transition {message : EchoWorkerCallbackMessage}
    (stepped : system.deliver transaction message = some next) :
    Transition system (.deliver transaction message) next := by
  unfold System.deliver at stepped
  split at stepped
  · rename_i enabled
    cases stepped
    exact .delivered enabled.1 enabled.2
  · cases stepped

private theorem System.read_transition
    (stepped : system.read transaction = some next) :
    Transition system (.read transaction) next := by
  unfold System.read at stepped
  split at stepped
  · rename_i message phase
    split at stepped
    · rename_i absent
      cases stepped
      exact .missing phase absent
    · rename_i row found
      cases stepped
      exact .loaded phase found
  · cases stepped

private theorem System.write_transition
    (stepped : system.write transaction = some next) :
    Transition system (.write transaction) next := by
  unfold System.write at stepped
  split at stepped
  · rename_i message row phase
    cases stepped
    exact .flushed phase
  · cases stepped

private theorem System.query_transition
    (stepped : system.query transaction = some next) :
    Transition system (.query transaction) next := by
  unfold System.query at stepped
  split at stepped
  · rename_i message row phase
    cases stepped
    exact .queried phase
  · cases stepped

private theorem System.publish_transition
    (stepped : system.publish transaction scan = some next) :
    Transition system (.publish transaction scan) next := by
  unfold System.publish at stepped
  split at stepped
  · rename_i message row phase
    split at stepped
    · cases stepped
      exact .dropped (Or.inr ⟨message, row, phase⟩)
    · rename_i merge returned
      cases stepped
      exact .mergePublished phase returned
  · cases stepped

private theorem System.commit_transition
    (stepped : system.commit transaction = some next) :
    Transition system (.commit transaction) next := by
  unfold System.commit at stepped
  split at stepped
  · rename_i message row phase
    cases stepped
    exact .reportCommitted (Or.inl phase)
  · rename_i message row phase
    cases stepped
    exact .reportCommitted (Or.inr phase)
  · cases stepped

end Methods

theorem step_transition {system next : System} {event : Event}
    (stepped : sessions.step system event = some next) : Transition system event next := by
  cases event with
  | receive handler message =>
      change (if system.starts handler = .idle then _ else none) = some next at stepped
      split at stepped
      · rename_i idle
        cases stepped
        exact .receive idle
      · cases stepped
  | findOrchestrator handler => exact System.findOrchestrator_transition stepped
  | commitOrchestrator handler => exact System.commitOrchestrator_transition stepped
  | existsWorkers handler => exact System.existsWorkers_transition stepped
  | findWorkers handler scan => exact System.findWorkers_transition stepped
  | insertWorkers handler strategy uuid => exact System.insertWorkers_transition stepped
  | commitWorkers handler => exact System.commitWorkers_transition stepped
  | saveWorker handler strategy => exact System.saveWorker_transition stepped
  | publishWorker handler => exact System.publishWorker_transition stepped
  | commitWorker handler => exact System.commitWorker_transition stepped
  | acknowledge handler => exact System.acknowledge_transition stepped
  | rollBackStart handler =>
      cases stepped
      exact .giveUp handler
  | work message => exact System.work_transition stepped
  | deliver transaction message => exact System.deliver_transition stepped
  | read transaction => exact System.read_transition stepped
  | write transaction => exact System.write_transition stepped
  | query transaction => exact System.query_transition stepped
  | publish transaction scan => exact System.publish_transition stepped
  | commit transaction => exact System.commit_transition stepped
  | rollBackCallback transaction =>
      cases stepped
      exact .dropped (Or.inl rfl)

end EchoProcessing.Orchestrator.Sessions
