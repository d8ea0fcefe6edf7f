/-
The orchestrator and its workers as one system of atomic transactions.

An event is one committed or rolled back transaction, one execution of a worker,
or the arrival or loss of a start message at a handler. Published messages are
kept, so every message can be delivered in any order and any number of times.
-/

import EchoProcessing.Library.Machine
import EchoProcessing.Orchestrator.RowUpdate

namespace EchoProcessing.Orchestrator

/-- How far `EchoService.start` has come for the start message of one handler. -/
inductive Handler where
  | idle
  | received (message : EchoStartMessage)
  | orchestrated (message : EchoStartMessage) (geoTransform : GeoTransform)
  /-- The copies still to be started. They are detached: the rows may move on. -/
  | starting (message : EchoStartMessage) (totalWorkers : ℤ) (workers : List EchoWorker)
deriving DecidableEq, Repr

inductive Outcome where
  | committed
  | rolledBack
deriving DecidableEq, Repr

structure System where
  db : Database
  handlers : ℕ → Handler
  workerMessages : List EchoWorkerMessage
  callbackMessages : List EchoWorkerCallbackMessage
  mergeMessages : List EchoMergeMessage
  /-- Callbacks handed to `callbackEchoWorker` so far, rolled back ones included. -/
  delivered : List EchoWorkerCallbackMessage
  /-- The rows of each transaction that inserted workers. -/
  insertions : List (List EchoWorker)
  acknowledged : List EchoStartMessage

def System.initial (db : Database) : System :=
  { db := db
    handlers := fun _ => .idle
    workerMessages := []
    callbackMessages := []
    mergeMessages := []
    delivered := []
    insertions := []
    acknowledged := [] }

def System.setHandler (system : System) (handler : ℕ) (phase : Handler) : System :=
  { system with handlers := Function.update system.handlers handler phase }

namespace EchoService

def cellWidth : CellSize := { value := 2000, positive := by decide }

def cellHeight : CellSize := { value := 2000, positive := by decide }

/-- The transform that `start` computes from the message alone. -/
def geoTransformOf (message : EchoStartMessage) : Except Failure GeoTransform :=
  GeoService.getGeoTransform message.imageSizeX message.imageSizeY message.aoi

def gridOf (message : EchoStartMessage) (geoTransform : GeoTransform) : Except Failure Grid :=
  GridService.split cellWidth cellHeight message.imageSizeX message.imageSizeY geoTransform

def createOrchestrator (db : Database) (message : EchoStartMessage) :
    Except Failure (GeoTransform × Database) := do
  let geoTransform ← geoTransformOf message
  let next ← EchoOrchestratorService.createOrchestrator db message.processingId message.imageURL
    message.imageSizeX message.imageSizeY geoTransform
  return (geoTransform, next)

def createWorkers (strategy : ErrorStrategy) (uuid : ℕ → String) (scan : Scan) (db : Database)
    (message : EchoStartMessage) (geoTransform : GeoTransform) :
    Except Failure (List EchoWorker × Database) := do
  let grid ← gridOf message geoTransform
  EchoWorkerService.createWorkers strategy uuid scan db message.processingId message.imageURL grid

end EchoService

/-- What a worker reports for a message, whether it renders the tile or finds it. -/
def EchoWorkerMessage.callback (message : EchoWorkerMessage) : EchoWorkerCallbackMessage :=
  { processingId := message.processingId
    workerId := message.workerId
    imageURL := Image.tileURL message.processingId message.workerId
    trackerTotalWorkers := some message.trackerTotalWorkers }

inductive Event where
  | receive (handler : ℕ) (message : EchoStartMessage)
  | createOrchestrator (handler : ℕ)
  | createWorkers (handler : ℕ) (strategy : ErrorStrategy) (uuid : ℕ → String) (scan : Scan)
  | startEchoWorker (handler : ℕ) (strategy : ErrorStrategy) (outcome : Outcome)
  | acknowledge (handler : ℕ)
  /-- The handler ends between two transactions; its message will come again. -/
  | stop (handler : ℕ)
  | work (message : EchoWorkerMessage)
  | callback (message : EchoWorkerCallbackMessage) (scan : Scan) (outcome : Outcome)

namespace System

def createOrchestrator (system : System) (handler : ℕ) : Option System :=
  match system.handlers handler with
  | .received message =>
      match EchoService.createOrchestrator system.db message with
      | .error _ => some (system.setHandler handler .idle)
      | .ok (geoTransform, next) =>
          some ({ system with db := next }.setHandler handler (.orchestrated message geoTransform))
  | _ => none

def createWorkers (system : System) (handler : ℕ) (strategy : ErrorStrategy)
    (uuid : ℕ → String) (scan : Scan) : Option System :=
  match system.handlers handler with
  | .orchestrated message geoTransform =>
      match EchoService.createWorkers strategy uuid scan system.db message geoTransform with
      | .error _ => some (system.setHandler handler .idle)
      | .ok (workers, next) =>
          let inserted :=
            if EchoWorkerRepository.existsByProcessingId system.db message.processingId then []
            else [workers]
          some ({ system with db := next, insertions := system.insertions ++ inserted }.setHandler
            handler (.starting message workers.length workers))
  | _ => none

/-- After a rollback the message stays published and the handler gives up. -/
def startEchoWorker (system : System) (handler : ℕ) (strategy : ErrorStrategy)
    (outcome : Outcome) : Option System :=
  match system.handlers handler with
  | .starting message totalWorkers (worker :: rest) =>
      match EchoWorkerService.startEchoWorker strategy system.db worker totalWorkers with
      | .error _ => some (system.setHandler handler .idle)
      | .ok (next, published) =>
          let sent := { system with
            workerMessages := system.workerMessages ++ published.toList }
          match outcome with
          | .committed =>
              some ({ sent with db := next }.setHandler handler
                (.starting message totalWorkers rest))
          | .rolledBack => some (sent.setHandler handler .idle)
  | _ => none

def acknowledge (system : System) (handler : ℕ) : Option System :=
  match system.handlers handler with
  | .starting message _ [] =>
      some ({ system with acknowledged := system.acknowledged ++ [message] }.setHandler
        handler .idle)
  | _ => none

def work (system : System) (message : EchoWorkerMessage) : Option System :=
  if message ∈ system.workerMessages then
    some { system with callbackMessages := system.callbackMessages ++ [message.callback] }
  else none

def callback (system : System) (message : EchoWorkerCallbackMessage) (scan : Scan)
    (outcome : Outcome) : Option System :=
  if message ∈ system.callbackMessages then
    let received := { system with delivered := system.delivered ++ [message] }
    match EchoWorkerService.callbackEchoWorker scan system.db message.processingId
        message.workerId message.imageURL with
    | .error _ => some received
    | .ok (next, published) =>
        let sent := { received with
          mergeMessages := system.mergeMessages ++ published.toList }
        match outcome with
        | .committed => some { sent with db := next }
        | .rolledBack => some sent
  else none

def step (system : System) : Event → Option System
  | .receive handler message =>
      if system.handlers handler = .idle then
        some (system.setHandler handler (.received message))
      else none
  | .createOrchestrator handler => system.createOrchestrator handler
  | .createWorkers handler strategy uuid scan => system.createWorkers handler strategy uuid scan
  | .startEchoWorker handler strategy outcome => system.startEchoWorker handler strategy outcome
  | .acknowledge handler => system.acknowledge handler
  | .stop handler => some (system.setHandler handler .idle)
  | .work message => system.work message
  | .callback message scan outcome => system.callback message scan outcome

end System

/-- Every order of atomic transactions, deliveries and redeliveries is a run. -/
def delivery : Machine System Event where
  step := System.step

/-! ### Images of one and of two tiles, for the statements about fixed runs -/

namespace Sample

def startMessage : EchoStartMessage :=
  { processingId := "p"
    imageURL := "/in.tif"
    imageSizeX := 2000
    imageSizeY := 2000
    aoi :=
      { crs := .epsg32613
        upperLeft := some { x := 0, y := 2000 }
        upperRight := some { x := 2000, y := 2000 }
        lowerLeft := some { x := 0, y := 0 }
        lowerRight := none } }

def workerMessage : EchoWorkerMessage :=
  { processingId := "p"
    workerId := "w"
    imageURL := "/in.tif"
    tileSizeX := 2000
    tileSizeY := 2000
    geoTransform :=
      { crs := .epsg32613, oriX := 0, oriY := 2000, resX := 1, resY := -1, skewX := 0, skewY := 0 }
    trackerTotalWorkers := 1 }

def untilStarted (outcome : Outcome) : List Event :=
  [.receive 0 startMessage, .createOrchestrator 0,
    .createWorkers 0 .none (fun _ => "w") .insertionOrder, .startEchoWorker 0 .none outcome]

def untilReported : List Event :=
  untilStarted .committed ++ [.acknowledge 0, .work workerMessage]

def reportDelivered : Event :=
  .callback workerMessage.callback .insertionOrder .committed

def twoTiles : EchoStartMessage :=
  { startMessage with
    imageSizeX := 4000
    aoi := { startMessage.aoi with upperRight := some { x := 4000, y := 2000 } } }

def twoIds : ℕ → String :=
  fun index => if index = 0 then "v" else "w"

def leftMessage : EchoWorkerMessage :=
  { workerMessage with workerId := "v", trackerTotalWorkers := 2 }

def rightMessage : EchoWorkerMessage :=
  { workerMessage with
    geoTransform := { workerMessage.geoTransform with oriX := 2000 }
    trackerTotalWorkers := 2 }

def leftDelivered : Event :=
  .callback leftMessage.callback .insertionOrder .committed

def rightDelivered : Event :=
  .callback rightMessage.callback .insertionOrder .committed

/-- The left tile is reported before the right one is started. -/
def untilLastReport : List Event :=
  [.receive 0 twoTiles, .createOrchestrator 0, .createWorkers 0 .none twoIds .insertionOrder,
    .startEchoWorker 0 .none .committed, .work leftMessage, leftDelivered,
    .startEchoWorker 0 .none .committed, .acknowledge 0, .work rightMessage]

private theorem untilLastReport_enabled :
    (delivery.run (System.initial Database.empty) untilLastReport).isSome = true := by
  decide +kernel

def lastReport : System :=
  (delivery.run (System.initial Database.empty) untilLastReport).get untilLastReport_enabled

theorem runs_lastReport :
    delivery.Runs (System.initial Database.empty) untilLastReport lastReport :=
  delivery.runs_get untilLastReport_enabled

end Sample

/-! ### What a step can do -/

/-- The step as a relation: one constructor for each way in which a method can return. -/
inductive Performs (system : System) : Event → System → Prop where
  | receive {handler message} (idle : system.handlers handler = .idle) :
      Performs system (.receive handler message) (system.setHandler handler (.received message))
  | orchestratorRefused {handler message failure}
      (phase : system.handlers handler = .received message)
      (returned : EchoService.createOrchestrator system.db message = .error failure) :
      Performs system (.createOrchestrator handler) (system.setHandler handler .idle)
  | orchestratorCreated {handler message geoTransform database}
      (phase : system.handlers handler = .received message)
      (returned : EchoService.createOrchestrator system.db message =
        .ok (geoTransform, database)) :
      Performs system (.createOrchestrator handler)
        ({ system with db := database }.setHandler handler (.orchestrated message geoTransform))
  | workersRefused {handler strategy uuid scan message geoTransform failure}
      (phase : system.handlers handler = .orchestrated message geoTransform)
      (returned : EchoService.createWorkers strategy uuid scan system.db message geoTransform =
        .error failure) :
      Performs system (.createWorkers handler strategy uuid scan)
        (system.setHandler handler .idle)
  | workersCreated {handler strategy uuid scan message geoTransform workers database}
      (phase : system.handlers handler = .orchestrated message geoTransform)
      (returned : EchoService.createWorkers strategy uuid scan system.db message geoTransform =
        .ok (workers, database)) :
      Performs system (.createWorkers handler strategy uuid scan)
        ({ system with
            db := database
            insertions := system.insertions ++
              if EchoWorkerRepository.existsByProcessingId system.db message.processingId then []
              else [workers]
          }.setHandler handler (.starting message workers.length workers))
  | workerRefused {handler strategy outcome message totalWorkers worker rest failure}
      (phase : system.handlers handler = .starting message totalWorkers (worker :: rest))
      (returned : EchoWorkerService.startEchoWorker strategy system.db worker totalWorkers =
        .error failure) :
      Performs system (.startEchoWorker handler strategy outcome)
        (system.setHandler handler .idle)
  | workerStarted {handler strategy message totalWorkers worker rest database published}
      (phase : system.handlers handler = .starting message totalWorkers (worker :: rest))
      (returned : EchoWorkerService.startEchoWorker strategy system.db worker totalWorkers =
        .ok (database, published)) :
      Performs system (.startEchoWorker handler strategy .committed)
        ({ system with
            db := database
            workerMessages := system.workerMessages ++ published.toList
          }.setHandler handler (.starting message totalWorkers rest))
  | workerRolledBack {handler strategy message totalWorkers worker rest database published}
      (phase : system.handlers handler = .starting message totalWorkers (worker :: rest))
      (returned : EchoWorkerService.startEchoWorker strategy system.db worker totalWorkers =
        .ok (database, published)) :
      Performs system (.startEchoWorker handler strategy .rolledBack)
        ({ system with
            workerMessages := system.workerMessages ++ published.toList
          }.setHandler handler .idle)
  | acknowledge {handler message totalWorkers}
      (phase : system.handlers handler = .starting message totalWorkers []) :
      Performs system (.acknowledge handler)
        ({ system with acknowledged := system.acknowledged ++ [message] }.setHandler handler .idle)
  | stop {handler} : Performs system (.stop handler) (system.setHandler handler .idle)
  | work {message} (published : message ∈ system.workerMessages) :
      Performs system (.work message)
        { system with callbackMessages := system.callbackMessages ++ [message.callback] }
  | callbackRefused {message scan outcome failure}
      (published : message ∈ system.callbackMessages)
      (returned : EchoWorkerService.callbackEchoWorker scan system.db message.processingId
        message.workerId message.imageURL = .error failure) :
      Performs system (.callback message scan outcome)
        { system with delivered := system.delivered ++ [message] }
  | callbackReturned {message scan database merge}
      (published : message ∈ system.callbackMessages)
      (returned : EchoWorkerService.callbackEchoWorker scan system.db message.processingId
        message.workerId message.imageURL = .ok (database, merge)) :
      Performs system (.callback message scan .committed)
        { system with
          db := database
          delivered := system.delivered ++ [message]
          mergeMessages := system.mergeMessages ++ merge.toList }
  | callbackRolledBack {message scan database merge}
      (published : message ∈ system.callbackMessages)
      (returned : EchoWorkerService.callbackEchoWorker scan system.db message.processingId
        message.workerId message.imageURL = .ok (database, merge)) :
      Performs system (.callback message scan .rolledBack)
        { system with
          delivered := system.delivered ++ [message]
          mergeMessages := system.mergeMessages ++ merge.toList }

theorem step_performs {system next : System} {event : Event}
    (stepped : delivery.step system event = some next) : Performs system event next := by
  cases event with
  | receive handler message =>
      obtain ⟨idle, same⟩ := Option.ite_none_right_eq_some.mp stepped
      cases same
      exact .receive idle
  | createOrchestrator handler =>
      change system.createOrchestrator handler = some next at stepped
      unfold System.createOrchestrator at stepped
      split at stepped
      · split at stepped
        · cases stepped
          exact .orchestratorRefused ‹_› ‹_›
        · cases stepped
          exact .orchestratorCreated ‹_› ‹_›
      · cases stepped
  | createWorkers handler strategy uuid scan =>
      change system.createWorkers handler strategy uuid scan = some next at stepped
      unfold System.createWorkers at stepped
      split at stepped
      · split at stepped
        · cases stepped
          exact .workersRefused ‹_› ‹_›
        · cases stepped
          exact .workersCreated ‹_› ‹_›
      · cases stepped
  | startEchoWorker handler strategy outcome =>
      change system.startEchoWorker handler strategy outcome = some next at stepped
      unfold System.startEchoWorker at stepped
      split at stepped
      · split at stepped
        · cases stepped
          exact .workerRefused ‹_› ‹_›
        · cases outcome with
          | committed =>
              cases stepped
              exact .workerStarted ‹_› ‹_›
          | rolledBack =>
              cases stepped
              exact .workerRolledBack ‹_› ‹_›
      · cases stepped
  | acknowledge handler =>
      change system.acknowledge handler = some next at stepped
      unfold System.acknowledge at stepped
      split at stepped
      · cases stepped
        exact .acknowledge ‹_›
      · cases stepped
  | stop handler =>
      cases stepped
      exact .stop
  | work message =>
      obtain ⟨published, same⟩ := Option.ite_none_right_eq_some.mp stepped
      cases same
      exact .work published
  | callback message scan outcome =>
      obtain ⟨published, handled⟩ := Option.ite_none_right_eq_some.mp stepped
      dsimp only at handled
      split at handled
      · cases handled
        exact .callbackRefused published ‹_›
      · cases outcome with
        | committed =>
            cases handled
            exact .callbackReturned published ‹_›
        | rolledBack =>
            cases handled
            exact .callbackRolledBack published ‹_›

theorem Performs.step {system next : System} {event : Event}
    (performs : Performs system event next) : delivery.step system event = some next := by
  cases performs with
  | receive idle => exact if_pos idle
  | orchestratorRefused phase returned | orchestratorCreated phase returned =>
      simp only [delivery, System.step, System.createOrchestrator, phase, returned]
  | workersRefused phase returned | workersCreated phase returned =>
      simp only [delivery, System.step, System.createWorkers, phase, returned]
  | workerRefused phase returned
  | workerStarted phase returned
  | workerRolledBack phase returned =>
      simp only [delivery, System.step, System.startEchoWorker, phase, returned]
  | acknowledge phase => simp only [delivery, System.step, System.acknowledge, phase]
  | stop => rfl
  | work published => exact if_pos published
  | callbackRefused published returned
  | callbackReturned published returned
  | callbackRolledBack published returned =>
      simp only [delivery, System.step, System.callback, if_pos published, returned]

/-! ### What this means for the rows -/

/-- The handler whose delivery an event advances. -/
def Event.handler? : Event → Option ℕ
  | .receive handler _ => some handler
  | .createOrchestrator handler => some handler
  | .createWorkers handler _ _ _ => some handler
  | .startEchoWorker handler _ _ => some handler
  | .acknowledge handler => some handler
  | .stop handler => some handler
  | .work _ => none
  | .callback _ _ _ => none

open EchoWorkerRepository EchoWorkerService in
/-- One constructor for each thing that an enabled event may do, guards included. -/
inductive Transition (system : System) : Event → System → Prop where
  | receive {handler message} (idle : system.handlers handler = .idle) :
      Transition system (.receive handler message)
        (system.setHandler handler (.received message))
  | giveUp {event handler} (own : event.handler? = some handler) :
      Transition system event (system.setHandler handler .idle)
  | orchestratorFound {handler message geoTransform row}
      (phase : system.handlers handler = .received message)
      (transform : EchoService.geoTransformOf message = .ok geoTransform)
      (found : EchoOrchestratorRepository.findByProcessingId system.db message.processingId =
        some row) :
      Transition system (.createOrchestrator handler)
        (system.setHandler handler (.orchestrated message geoTransform))
  | orchestratorInserted {handler message geoTransform next row}
      (phase : system.handlers handler = .received message)
      (transform : EchoService.geoTransformOf message = .ok geoTransform)
      (missing : EchoOrchestratorRepository.findByProcessingId system.db message.processingId =
        none)
      (sameWorkers : next.workers = system.db.workers)
      (rowKey : row.processingId = message.processingId)
      (rows : next.orchestrators.rows = system.db.orchestrators.rows ++ [row])
      (fits : message.TextsFit) :
      Transition system (.createOrchestrator handler)
        ({ system with db := next }.setHandler handler (.orchestrated message geoTransform))
  | workersRead {handler strategy uuid message geoTransform} {scan : Scan} {grid : Grid}
      (phase : system.handlers handler = .orchestrated message geoTransform)
      (gridEq : EchoService.gridOf message geoTransform = .ok grid)
      (present : ofProcessing system.db message.processingId ≠ []) :
      Transition system (.createWorkers handler strategy uuid scan)
        (system.setHandler handler (.starting message
          (findByProcessingId scan system.db message.processingId).length
          (findByProcessingId scan system.db message.processingId)))
  | workersInserted {handler strategy uuid message geoTransform next} {scan : Scan} {grid : Grid}
      {workers : List EchoWorker}
      (phase : system.handlers handler = .orchestrated message geoTransform)
      (gridEq : EchoService.gridOf message geoTransform = .ok grid)
      (absent : ofProcessing system.db message.processingId = [])
      (workersEq : workers = newWorkers message.processingId message.imageURL uuid grid)
      (sameOrchestrators : next.orchestrators = system.db.orchestrators)
      (rows : next.workers.rows = system.db.workers.rows ++ workers) :
      Transition system (.createWorkers handler strategy uuid scan)
        ({ system with db := next, insertions := system.insertions ++ [workers] }.setHandler
          handler (.starting message workers.length workers))
  | startSkipped {handler strategy message totalWorkers worker rest}
      (phase : system.handlers handler = .starting message totalWorkers (worker :: rest))
      (leftInit : worker.state ≠ .init) :
      Transition system (.startEchoWorker handler strategy .committed)
        (system.setHandler handler (.starting message totalWorkers rest))
  | startCommitted {handler strategy message totalWorkers worker rest}
      (phase : system.handlers handler = .starting message totalWorkers (worker :: rest))
      (initial : worker.state = .init) :
      Transition system (.startEchoWorker handler strategy .committed)
        ({ system with
            db := save system.db (started worker)
            workerMessages := system.workerMessages ++ [workerMessage worker totalWorkers]
          }.setHandler handler (.starting message totalWorkers rest))
  | startRolledBack {handler strategy message totalWorkers worker rest}
      (phase : system.handlers handler = .starting message totalWorkers (worker :: rest))
      (initial : worker.state = .init) :
      Transition system (.startEchoWorker handler strategy .rolledBack)
        ({ system with
            workerMessages := system.workerMessages ++ [workerMessage worker totalWorkers]
          }.setHandler handler .idle)
  | acknowledge {handler message totalWorkers}
      (phase : system.handlers handler = .starting message totalWorkers []) :
      Transition system (.acknowledge handler)
        ({ system with acknowledged := system.acknowledged ++ [message] }.setHandler handler .idle)
  | work {message} (published : message ∈ system.workerMessages) :
      Transition system (.work message)
        { system with callbackMessages := system.callbackMessages ++ [message.callback] }
  | callbackDropped {message scan outcome} (published : message ∈ system.callbackMessages) :
      Transition system (.callback message scan outcome)
        { system with delivered := system.delivered ++ [message] }
  | callbackCommitted {message scan row} {merge : Option EchoMergeMessage}
      (published : message ∈ system.callbackMessages)
      (found : findByWorkerId system.db message.workerId = some row) :
      Transition system (.callback message scan .committed)
        { system with
          db := save system.db (finished row message.imageURL)
          delivered := system.delivered ++ [message]
          mergeMessages := system.mergeMessages ++ merge.toList }
  | callbackRolledBack {message scan} {merge : Option EchoMergeMessage}
      (published : message ∈ system.callbackMessages) :
      Transition system (.callback message scan .rolledBack)
        { system with
          delivered := system.delivered ++ [message]
          mergeMessages := system.mergeMessages ++ merge.toList }

theorem EchoService.createOrchestrator_ok {db next : Database} {message : EchoStartMessage}
    {geoTransform : GeoTransform}
    (returned : EchoService.createOrchestrator db message = .ok (geoTransform, next)) :
    geoTransformOf message = .ok geoTransform ∧
      EchoOrchestratorService.createOrchestrator db message.processingId message.imageURL
        message.imageSizeX message.imageSizeY geoTransform = .ok next := by
  unfold EchoService.createOrchestrator at returned
  cases transform : geoTransformOf message with
  | error failure =>
      rw [transform] at returned
      cases returned
  | ok computed =>
      rw [transform] at returned
      cases created : EchoOrchestratorService.createOrchestrator db message.processingId
          message.imageURL message.imageSizeX message.imageSizeY computed with
      | error failure =>
          simp only [bind, Except.bind, created] at returned
          cases returned
      | ok database =>
          simp only [bind, Except.bind, created, pure, Except.pure] at returned
          cases returned
          exact ⟨rfl, created⟩

theorem EchoService.createWorkers_ok {strategy : ErrorStrategy} {uuid : ℕ → String} {scan : Scan}
    {db next : Database} {message : EchoStartMessage} {geoTransform : GeoTransform}
    {workers : List EchoWorker}
    (returned : EchoService.createWorkers strategy uuid scan db message geoTransform =
      .ok (workers, next)) :
    ∃ grid, gridOf message geoTransform = .ok grid ∧
      EchoWorkerService.createWorkers strategy uuid scan db message.processingId message.imageURL
        grid = .ok (workers, next) := by
  unfold EchoService.createWorkers at returned
  cases gridEq : gridOf message geoTransform with
  | error failure =>
      rw [gridEq] at returned
      cases returned
  | ok grid =>
      rw [gridEq] at returned
      exact ⟨grid, rfl, returned⟩

theorem Performs.transition {system next : System} {event : Event}
    (performs : Performs system event next) : Transition system event next := by
  cases performs with
  | receive idle => exact .receive idle
  | orchestratorRefused phase returned => exact .giveUp rfl
  | orchestratorCreated phase returned =>
      obtain ⟨transform, created⟩ := EchoService.createOrchestrator_ok returned
      obtain ⟨sameWorkers, ⟨rfl, row, found⟩ | ⟨missing, fits, row, rowKey, rows⟩⟩ :=
        createOrchestrator_ok created
      · exact .orchestratorFound phase transform found
      · exact .orchestratorInserted phase transform missing sameWorkers rowKey rows
          ⟨fits.1, fits.2⟩
  | workersRefused phase returned => exact .giveUp rfl
  | workersCreated phase returned =>
      obtain ⟨grid, gridEq, created⟩ := EchoService.createWorkers_ok returned
      rcases createWorkers_ok created with
        ⟨present, rfl, rfl⟩ | ⟨absent, workersEq, sameOrchestrators, rows⟩
      · have guard :=
          (EchoWorkerRepository.existsByProcessingId_eq_true_iff _ _).mpr present
        rw [guard, if_pos rfl, List.append_nil]
        exact .workersRead phase gridEq present
      · have guard :=
          (EchoWorkerRepository.existsByProcessingId_eq_false_iff _ _).mpr absent
        rw [guard, if_neg Bool.false_ne_true]
        exact .workersInserted phase gridEq absent workersEq sameOrchestrators rows
  | workerRefused phase returned => exact .giveUp rfl
  | workerStarted phase returned =>
      rcases startEchoWorker_ok returned with ⟨leftInit, rfl, rfl⟩ | ⟨initial, rfl, rfl⟩
      · rw [Option.toList_none, List.append_nil]
        exact .startSkipped phase leftInit
      · exact .startCommitted phase initial
  | workerRolledBack phase returned =>
      rcases startEchoWorker_ok returned with ⟨leftInit, rfl, rfl⟩ | ⟨initial, rfl, rfl⟩
      · rw [Option.toList_none, List.append_nil]
        exact .giveUp rfl
      · exact .startRolledBack phase initial
  | acknowledge phase => exact .acknowledge phase
  | stop => exact .giveUp rfl
  | work published => exact .work published
  | callbackRefused published returned => exact .callbackDropped published
  | callbackReturned published returned =>
      rcases callbackEchoWorker_ok returned with ⟨_, rfl, rfl⟩ | ⟨row, found, rfl, _⟩
      · rw [Option.toList_none, List.append_nil]
        exact .callbackDropped published
      · exact .callbackCommitted published found
  | callbackRolledBack published returned => exact .callbackRolledBack published

theorem step_transition {system next : System} {event : Event}
    (stepped : delivery.step system event = some next) : Transition system event next :=
  (step_performs stepped).transition

end EchoProcessing.Orchestrator
