/-
The transactional methods of the echo orchestrator.

Each method is the body of one transaction: a function of the database it starts
from. A failure stands for a rollback. What a method publishes is part of its
result, because a publish is not undone when the transaction is.
-/

import EchoProcessing.Orchestrator.Database
import Mathlib.Data.List.Indexes

namespace EchoProcessing.Orchestrator

inductive ErrorSource where
  | onStartMessage
  | afterInitWorkersInDatabase
  | afterProcessingWorkerInDatabase
  | onWorkerCallbackMessage
deriving DecidableEq, Repr

def ErrorSource.name : ErrorSource → String
  | .onStartMessage => "ON_START_MESSAGE"
  | .afterInitWorkersInDatabase => "AFTER_INIT_WORKERS_IN_DATABASE"
  | .afterProcessingWorkerInDatabase => "AFTER_PROCESSING_WORKER_IN_DATABASE"
  | .onWorkerCallbackMessage => "ON_WORKER_CALLBACK_MESSAGE"

/-- The sources at which a strategy throws; the random one may differ at each use. -/
abbrev ErrorStrategy := ErrorSource → Bool

def ErrorStrategy.none : ErrorStrategy := fun _ => false

def applyErrorStrategy (strategy : ErrorStrategy) (source : ErrorSource) : Except Failure Unit :=
  if strategy source then .error (.illegalArgument ("Manual error on source " ++ source.name))
  else .ok ()

namespace EchoOrchestratorService

def newOrchestrator (processingId imageUrl : String) (imageSizeX imageSizeY : ℤ)
    (geoTransform : GeoTransform) : EchoOrchestrator :=
  { processingId := processingId
    imageURL := imageUrl
    imageSizeX := imageSizeX
    imageSizeY := imageSizeY
    geoTransform := geoTransform }

def createOrchestrator (db : Database) (processingId imageUrl : String)
    (imageSizeX imageSizeY : ℤ) (geoTransform : GeoTransform) : Except Failure Database :=
  match EchoOrchestratorRepository.findByProcessingId db processingId with
  | some _ => .ok db
  | none => EchoOrchestratorRepository.save db
      (newOrchestrator processingId imageUrl imageSizeX imageSizeY geoTransform)

end EchoOrchestratorService

namespace EchoWorkerService

/-- The row built for one cell; `uuid` is what `UUID.randomUUID` returns for it. -/
def newWorker (processingId imageURL : String) (uuid : String) (cell : Cell) : EchoWorker :=
  { processingId := processingId
    workerId := uuid
    state := .init
    imageURL := imageURL
    tileSizeX := cell.sizeX
    tileSizeY := cell.sizeY
    geoTransform := cell.geoTransform
    tileURL := none }

def newWorkers (processingId imageURL : String) (uuid : ℕ → String) (grid : Grid) :
    List EchoWorker :=
  grid.cells.mapIdx (fun index cell => newWorker processingId imageURL (uuid index) cell)

def createWorkers (strategy : ErrorStrategy) (uuid : ℕ → String) (scan : Scan) (db : Database)
    (processingId imageURL : String) (grid : Grid) : Except Failure (List EchoWorker × Database) :=
  if EchoWorkerRepository.existsByProcessingId db processingId then
    .ok (EchoWorkerRepository.findByProcessingId scan db processingId, db)
  else do
    let saved ← EchoWorkerRepository.saveAll db (newWorkers processingId imageURL uuid grid)
    applyErrorStrategy strategy .afterInitWorkersInDatabase
    return (newWorkers processingId imageURL uuid grid, saved)

/-- The row that `startEchoWorker` saves: every column of the copy it was given. -/
def started (echoWorker : EchoWorker) : EchoWorker :=
  { echoWorker with state := .processing }

def workerMessage (echoWorker : EchoWorker) (totalWorkers : ℤ) : EchoWorkerMessage :=
  { processingId := echoWorker.processingId
    workerId := echoWorker.workerId
    imageURL := echoWorker.imageURL
    tileSizeX := echoWorker.tileSizeX
    tileSizeY := echoWorker.tileSizeY
    geoTransform := echoWorker.geoTransform
    trackerTotalWorkers := totalWorkers }

def startEchoWorker (strategy : ErrorStrategy) (db : Database) (echoWorker : EchoWorker)
    (totalWorkers : ℤ) : Except Failure (Database × Option EchoWorkerMessage) :=
  if echoWorker.state = .init then do
    applyErrorStrategy strategy .afterProcessingWorkerInDatabase
    return (EchoWorkerRepository.save db (started echoWorker),
      some (workerMessage echoWorker totalWorkers))
  else .ok (db, none)

def finished (echoWorker : EchoWorker) (tileURL : String) : EchoWorker :=
  { echoWorker with state := .done, tileURL := some tileURL }

def mergeMessage (echoWorker : EchoWorker) (echoWorkers : List EchoWorker)
    (echoOrchestrator : EchoOrchestrator) : EchoMergeMessage :=
  { processingId := echoWorker.processingId
    tileURLs := echoWorkers.map EchoWorker.tileURL
    imageSizeX := echoOrchestrator.imageSizeX
    imageSizeY := echoOrchestrator.imageSizeY
    geoTransform := echoOrchestrator.geoTransform }

def allDone (db : Database) (processingId : String) : Bool :=
  let states := EchoWorkerRepository.findDistinctStateByProcessingId db processingId
  states.card = 1 ∧ Worker.State.done ∈ states

/-- The queries and the publish of the branch in which every worker is done. -/
def publishMerge (scan : Scan) (db : Database) (processingId : String) (echoWorker : EchoWorker) :
    Except Failure EchoMergeMessage :=
  match EchoOrchestratorRepository.findByProcessingId db processingId with
  | none => .error (.illegalState none)
  | some echoOrchestrator =>
      .ok (mergeMessage echoWorker (EchoWorkerRepository.findByProcessingId scan db processingId)
        echoOrchestrator)

/-- The managed row is flushed before the state query, which therefore sees it. -/
def callbackEchoWorker (scan : Scan) (db : Database) (processingId workerId tileURL : String) :
    Except Failure (Database × Option EchoMergeMessage) :=
  match EchoWorkerRepository.findByWorkerId db workerId with
  -- Only logged: "Can't find worker with id ... Skipping message".
  | none => .ok (db, none)
  | some echoWorker =>
      let flushed := EchoWorkerRepository.save db (finished echoWorker tileURL)
      if allDone flushed processingId then do
        let message ← publishMerge scan flushed processingId (finished echoWorker tileURL)
        return (flushed, some message)
      else .ok (flushed, none)

end EchoWorkerService

end EchoProcessing.Orchestrator
