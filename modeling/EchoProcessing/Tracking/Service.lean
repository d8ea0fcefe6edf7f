/-
The tracker: its row, its messages, its repository, its service and its listeners.

Integer columns are unbounded here and an instant is a count of nanoseconds. A
listener that throws leaves the table as it was, since every service method is one
transaction.
-/

import EchoProcessing.Geo.Service
import EchoProcessing.Library.KeyedTable
import EchoProcessing.Library.Machine
import Mathlib.Data.Rat.Floor

namespace EchoProcessing.Tracking

abbrev Instant := ℤ

structure Tracker where
  processingId : String
  /-- On ten thousand. -/
  progress : ℤ
  creationDate : Instant
  lastRefresh : Instant
  velocity : ℤ
  maxProgress : ℤ
deriving DecidableEq, Repr

/-- The unique index on `processingId` is a field of the table. -/
abbrev Trackers := KeyedTable Tracker.processingId

structure EchoStartMessage where
  processingId : String
  imageURL : String
  aoi : Aoi
deriving DecidableEq, Repr

/-- The total is a boxed number, which a message can leave out. -/
structure EchoWorkerCallbackMessage where
  processingId : String
  workerId : String
  imageURL : String
  trackerTotalWorkers : Option ℤ
deriving DecidableEq, Repr

structure EchoMergeCallbackMessage where
  processingId : String
  imageURL : String
  aoi : Aoi
deriving DecidableEq, Repr

/-- What a difference of two timestamps is stored as. Every part has its sign. -/
structure Interval where
  day : ℤ
  hour : ℤ
  minute : ℤ
  second : ℚ

def nanosOfSecond : ℤ := 1000000000

def nanosOfMinute : ℤ := 60 * nanosOfSecond

def nanosOfHour : ℤ := 60 * nanosOfMinute

def nanosOfDay : ℤ := 24 * nanosOfHour

def Interval.between (later earlier : Instant) : Interval :=
  let elapsed := later - earlier
  { day := elapsed.tdiv nanosOfDay
    hour := (elapsed.tmod nanosOfDay).tdiv nanosOfHour
    minute := (elapsed.tmod nanosOfHour).tdiv nanosOfMinute
    second := (elapsed.tmod nanosOfMinute : ℚ) / nanosOfSecond }

/-- The part named `milliseconds` is the seconds again, whole minutes left out. -/
def Interval.milliseconds (interval : Interval) : ℚ :=
  interval.second * 1000

/-- How a floating point value is stored in an integer column: the nearest integer,
the even one of two. -/
def toIntegerColumn (value : ℚ) : ℤ :=
  let below := value.floor
  let rest := value - below
  if rest < 1 / 2 then below
  else if 1 / 2 < rest then below + 1
  else if below % 2 = 0 then below
  else below + 1

namespace TrackerRepository

def findByProcessingId (trackers : Trackers) (processingId : String) : Option Tracker :=
  trackers.find? processingId

def save (trackers : Trackers) (tracker : Tracker) : Except Failure Trackers :=
  match trackers.insertAll? [tracker] with
  | some next => .ok next
  | none => .error .dataIntegrityViolation

/-- The bracketing is the one of the query. -/
def velocity (lastRefresh oldLastRefresh : Instant) : ℤ :=
  let interval := Interval.between lastRefresh oldLastRefresh
  toIntegerColumn
    (((interval.day * 24 + interval.hour) * 60 + interval.minute) * 60 +
      interval.second * 1000 + interval.milliseconds)

/-- Every right-hand side reads the row as it was before the statement. -/
def incremented (deltaProgress deltaMaxProgress : ℤ) (lastRefresh : Instant)
    (tracker : Tracker) : Tracker :=
  { tracker with
    progress := tracker.progress + deltaProgress
    maxProgress := tracker.progress + deltaMaxProgress
    lastRefresh := lastRefresh
    velocity := velocity lastRefresh tracker.lastRefresh }

theorem processingId_incremented (deltaProgress deltaMaxProgress : ℤ) (lastRefresh : Instant)
    (tracker : Tracker) :
    (incremented deltaProgress deltaMaxProgress lastRefresh tracker).processingId =
      tracker.processingId := rfl

def incrementProgressByProcessingId (trackers : Trackers) (processingId : String)
    (deltaProgress deltaMaxProgress : ℤ) (lastRefresh : Instant) : Trackers :=
  trackers.updateAt processingId (incremented deltaProgress deltaMaxProgress lastRefresh)
    (processingId_incremented deltaProgress deltaMaxProgress lastRefresh)

def updated (progress : ℤ) (lastRefresh : Instant) (maxProgress velocity : ℤ)
    (tracker : Tracker) : Tracker :=
  { tracker with
    progress := progress
    lastRefresh := lastRefresh
    maxProgress := maxProgress
    velocity := velocity }

theorem processingId_updated (progress : ℤ) (lastRefresh : Instant)
    (maxProgress velocity : ℤ) (tracker : Tracker) :
    (updated progress lastRefresh maxProgress velocity tracker).processingId =
      tracker.processingId := rfl

def updateProgressByProcessingId (trackers : Trackers) (processingId : String)
    (deltaProgress : ℤ) (lastRefresh : Instant) (maxProgress velocity : ℤ) : Trackers :=
  trackers.updateAt processingId (updated deltaProgress lastRefresh maxProgress velocity)
    (processingId_updated deltaProgress lastRefresh maxProgress velocity)

end TrackerRepository

namespace TrackerService

/-- Division of the source's `int`, which truncates. -/
def divide (dividend divisor : ℤ) : Except Failure ℤ :=
  if divisor = 0 then .error (.arithmetic "/ by zero") else .ok (dividend.tdiv divisor)

def newTracker (processingId : String) (currentDate : Instant) : Tracker :=
  { processingId := processingId
    progress := 0
    creationDate := currentDate
    lastRefresh := currentDate
    velocity := 0
    maxProgress := 0 }

def startProcessing (trackers : Trackers) (processingId : String) (currentDate : Instant) :
    Except Failure Trackers :=
  TrackerRepository.save trackers (newTracker processingId currentDate)

def updateProcessingWhenWorkerFinished (trackers : Trackers) (processingId : String)
    (totalWorkers : ℤ) (currentDate : Instant) : Except Failure Trackers := do
  let deltaProgress ← divide 9000 totalWorkers
  let deltaMaxProgress ← divide (2 * 9000) totalWorkers
  return TrackerRepository.incrementProgressByProcessingId trackers processingId
    deltaProgress deltaMaxProgress currentDate

def finishProcessing (trackers : Trackers) (processingId : String) (currentDate : Instant) :
    Trackers :=
  TrackerRepository.updateProgressByProcessingId trackers processingId 10000 currentDate 10000 0

end TrackerService

namespace Listener

def receiveStartMessage (trackers : Trackers) (payload : EchoStartMessage) (now : Instant) :
    Except Failure Trackers :=
  TrackerService.startProcessing trackers payload.processingId now

/-- The call unboxes the total. -/
def receiveWorkerCallbackMessage (trackers : Trackers) (payload : EchoWorkerCallbackMessage)
    (now : Instant) : Except Failure Trackers :=
  match payload.trackerTotalWorkers with
  | none => .error .nullPointer
  | some totalWorkers =>
      TrackerService.updateProcessingWhenWorkerFinished trackers payload.processingId
        totalWorkers now

def receiveMergeCallbackMessage (trackers : Trackers) (payload : EchoMergeCallbackMessage)
    (now : Instant) : Except Failure Trackers :=
  .ok (TrackerService.finishProcessing trackers payload.processingId now)

end Listener

inductive Queue where
  | start  -- queue.tracker.echo.start
  | workerCallback  -- queue.tracker.echo.worker.callback
  | mergeCallback  -- queue.tracker.echo.merge.callback
deriving DecidableEq, Repr

inductive Message where
  | start (payload : EchoStartMessage)
  | workerCallback (payload : EchoWorkerCallbackMessage)
  | mergeCallback (payload : EchoMergeCallbackMessage)
deriving DecidableEq, Repr

namespace Message

def processingId : Message → String
  | .start payload => payload.processingId
  | .workerCallback payload => payload.processingId
  | .mergeCallback payload => payload.processingId

def queue : Message → Queue
  | .start _ => .start
  | .workerCallback _ => .workerCallback
  | .mergeCallback _ => .mergeCallback

end Message

/-- One delivery of a message, with the date that its listener reads. -/
structure Delivery where
  message : Message
  now : Instant
deriving DecidableEq, Repr

def receive (trackers : Trackers) (delivery : Delivery) : Except Failure Trackers :=
  match delivery.message with
  | .start payload => Listener.receiveStartMessage trackers payload delivery.now
  | .workerCallback payload =>
      Listener.receiveWorkerCallbackMessage trackers payload delivery.now
  | .mergeCallback payload =>
      Listener.receiveMergeCallbackMessage trackers payload delivery.now

def handle (trackers : Trackers) (delivery : Delivery) : Trackers :=
  match receive trackers delivery with
  | .ok next => next
  | .error _ => trackers

/-- Every order of deliveries, repeated ones included, is a run. -/
def tracker : Machine Trackers Delivery where
  step := fun trackers delivery => some (handle trackers delivery)

end EchoProcessing.Tracking
