/-
The messages as JSON.

The converter of every service writes one member for each field of the class of the
sender and fills the class of the receiver, which is another one. Unknown members are
passed over, and what the sender does not write is null at the receiver.
-/

import EchoProcessing.Image.Rendering
import EchoProcessing.Library.Json
import EchoProcessing.Tracking.Service

namespace EchoProcessing.Messaging

open Json (Codec)

/-- The constant of the enumeration, which is not its code. -/
def crsName : Crs → String
  | .epsg32613 => "EPSG32613"
  | .epsg4326 => "EPSG4326"
  | .epsg6326 => "EPSG6326"

def crs : Codec Crs :=
  Codec.enumeration [.epsg32613, .epsg4326, .epsg6326] crsName (by
    intro constant
    cases constant <;> decide +kernel)

def point : Codec Point :=
  Codec.record
    (fun value =>
      [("x", Codec.rational.write value.x), ("y", Codec.rational.write value.y)])
    (fun json => do
      let x ← Codec.rational.read (json.member "x")
      let y ← Codec.rational.read (json.member "y")
      some { x := x, y := y })
    (by
      intro value
      simp [List.lookup_cons])

def aoi : Codec Aoi :=
  Codec.record
    (fun value =>
      [("crs", crs.write value.crs),
        ("upperLeft", point.writeNullable value.upperLeft),
        ("upperRight", point.writeNullable value.upperRight),
        ("lowerLeft", point.writeNullable value.lowerLeft),
        ("lowerRight", point.writeNullable value.lowerRight)])
    (fun json => do
      let crs ← crs.read (json.member "crs")
      let upperLeft ← point.readNullable (json.member "upperLeft")
      let upperRight ← point.readNullable (json.member "upperRight")
      let lowerLeft ← point.readNullable (json.member "lowerLeft")
      let lowerRight ← point.readNullable (json.member "lowerRight")
      some
        { crs := crs
          upperLeft := upperLeft
          upperRight := upperRight
          lowerLeft := lowerLeft
          lowerRight := lowerRight })
    (by
      intro value
      simp [List.lookup_cons])

def geoTransform : Codec GeoTransform :=
  Codec.record
    (fun value =>
      [("crs", crs.write value.crs),
        ("oriX", Codec.rational.write value.oriX),
        ("oriY", Codec.rational.write value.oriY),
        ("resX", Codec.rational.write value.resX),
        ("resY", Codec.rational.write value.resY),
        ("skewX", Codec.rational.write value.skewX),
        ("skewY", Codec.rational.write value.skewY)])
    (fun json => do
      let crs ← crs.read (json.member "crs")
      let oriX ← Codec.rational.read (json.member "oriX")
      let oriY ← Codec.rational.read (json.member "oriY")
      let resX ← Codec.rational.read (json.member "resX")
      let resY ← Codec.rational.read (json.member "resY")
      let skewX ← Codec.rational.read (json.member "skewX")
      let skewY ← Codec.rational.read (json.member "skewY")
      some
        { crs := crs
          oriX := oriX
          oriY := oriY
          resX := resX
          resY := resY
          skewX := skewX
          skewY := skewY })
    (by
      intro value
      simp [List.lookup_cons])

namespace Start

/-- The class of the controller and of the orchestrator. -/
def message : Codec Orchestrator.EchoStartMessage :=
  Codec.record
    (fun value =>
      [("processingId", Codec.string.write value.processingId),
        ("imageURL", Codec.string.write value.imageURL),
        ("imageSizeX", Codec.integer.write value.imageSizeX),
        ("imageSizeY", Codec.integer.write value.imageSizeY),
        ("aoi", aoi.write value.aoi)])
    (fun json => do
      let processingId ← Codec.string.read (json.member "processingId")
      let imageURL ← Codec.string.read (json.member "imageURL")
      let imageSizeX ← Codec.integer.read (json.member "imageSizeX")
      let imageSizeY ← Codec.integer.read (json.member "imageSizeY")
      let aoi ← aoi.read (json.member "aoi")
      some
        { processingId := processingId
          imageURL := imageURL
          imageSizeX := imageSizeX
          imageSizeY := imageSizeY
          aoi := aoi })
    (by
      intro value
      simp [List.lookup_cons])

/-- The class of the tracker. -/
def tracker (json : Json) : Option Tracking.EchoStartMessage := do
  let processingId ← Codec.string.read (json.member "processingId")
  let imageURL ← Codec.string.read (json.member "imageURL")
  let aoi ← aoi.read (json.member "aoi")
  some { processingId := processingId, imageURL := imageURL, aoi := aoi }

end Start

/-- The class of the orchestrator and of the worker. -/
def workerMessage : Codec Orchestrator.EchoWorkerMessage :=
  Codec.record
    (fun value =>
      [("processingId", Codec.string.write value.processingId),
        ("workerId", Codec.string.write value.workerId),
        ("imageURL", Codec.string.write value.imageURL),
        ("tileSizeX", Codec.integer.write value.tileSizeX),
        ("tileSizeY", Codec.integer.write value.tileSizeY),
        ("geoTransform", geoTransform.write value.geoTransform),
        ("trackerTotalWorkers", Codec.integer.write value.trackerTotalWorkers)])
    (fun json => do
      let processingId ← Codec.string.read (json.member "processingId")
      let workerId ← Codec.string.read (json.member "workerId")
      let imageURL ← Codec.string.read (json.member "imageURL")
      let tileSizeX ← Codec.integer.read (json.member "tileSizeX")
      let tileSizeY ← Codec.integer.read (json.member "tileSizeY")
      let geoTransform ← geoTransform.read (json.member "geoTransform")
      let trackerTotalWorkers ← Codec.integer.read (json.member "trackerTotalWorkers")
      some
        { processingId := processingId
          workerId := workerId
          imageURL := imageURL
          tileSizeX := tileSizeX
          tileSizeY := tileSizeY
          geoTransform := geoTransform
          trackerTotalWorkers := trackerTotalWorkers })
    (by
      intro value
      simp [List.lookup_cons])

namespace WorkerCallback

/-- The class of the worker and of the orchestrator. -/
def message : Codec Orchestrator.EchoWorkerCallbackMessage :=
  Codec.record
    (fun value =>
      [("processingId", Codec.string.write value.processingId),
        ("workerId", Codec.string.write value.workerId),
        ("imageURL", Codec.string.write value.imageURL),
        ("trackerTotalWorkers", Codec.integer.writeNullable value.trackerTotalWorkers)])
    (fun json => do
      let processingId ← Codec.string.read (json.member "processingId")
      let workerId ← Codec.string.read (json.member "workerId")
      let imageURL ← Codec.string.read (json.member "imageURL")
      let trackerTotalWorkers ← Codec.integer.readNullable (json.member "trackerTotalWorkers")
      some
        { processingId := processingId
          workerId := workerId
          imageURL := imageURL
          trackerTotalWorkers := trackerTotalWorkers })
    (by
      intro value
      simp [List.lookup_cons])

/-- The class of the tracker, with the same fields. -/
def tracker (json : Json) : Option Tracking.EchoWorkerCallbackMessage := do
  let processingId ← Codec.string.read (json.member "processingId")
  let workerId ← Codec.string.read (json.member "workerId")
  let imageURL ← Codec.string.read (json.member "imageURL")
  let trackerTotalWorkers ← Codec.integer.readNullable (json.member "trackerTotalWorkers")
  some
    { processingId := processingId
      workerId := workerId
      imageURL := imageURL
      trackerTotalWorkers := trackerTotalWorkers }

end WorkerCallback

/-- The class of the orchestrator and of the merger. -/
def mergeMessage : Codec Orchestrator.EchoMergeMessage :=
  Codec.record
    (fun value =>
      [("processingId", Codec.string.write value.processingId),
        ("tileURLs", Codec.string.list.write value.tileURLs),
        ("imageSizeX", Codec.integer.write value.imageSizeX),
        ("imageSizeY", Codec.integer.write value.imageSizeY),
        ("geoTransform", geoTransform.write value.geoTransform)])
    (fun json => do
      let processingId ← Codec.string.read (json.member "processingId")
      let tileURLs ← Codec.string.list.read (json.member "tileURLs")
      let imageSizeX ← Codec.integer.read (json.member "imageSizeX")
      let imageSizeY ← Codec.integer.read (json.member "imageSizeY")
      let geoTransform ← geoTransform.read (json.member "geoTransform")
      some
        { processingId := processingId
          tileURLs := tileURLs
          imageSizeX := imageSizeX
          imageSizeY := imageSizeY
          geoTransform := geoTransform })
    (by
      intro value
      simp [List.lookup_cons])

namespace MergeCallback

/-- The class of the merger and of the orchestrator. -/
def message : Codec Image.EchoMergeCallbackMessage :=
  Codec.record
    (fun value =>
      [("processingId", Codec.string.write value.processingId),
        ("imageURL", Codec.string.write value.imageURL)])
    (fun json => do
      let processingId ← Codec.string.read (json.member "processingId")
      let imageURL ← Codec.string.read (json.member "imageURL")
      some { processingId := processingId, imageURL := imageURL })
    (by
      intro value
      simp [List.lookup_cons])

/-- What the tracker's class holds after the reading. Its area can be null. -/
structure Received where
  processingId : String
  imageURL : String
  aoi : Option Aoi
deriving DecidableEq, Repr

/-- The class of the tracker, which has an area that no other class has. -/
def tracker (json : Json) : Option Received := do
  let processingId ← Codec.string.read (json.member "processingId")
  let imageURL ← Codec.string.read (json.member "imageURL")
  let aoi ← aoi.readNullable (json.member "aoi")
  some { processingId := processingId, imageURL := imageURL, aoi := aoi }

end MergeCallback

theorem tracker_start (message : Orchestrator.EchoStartMessage) :
    Start.tracker (Start.message.write message) =
      some
        { processingId := message.processingId
          imageURL := message.imageURL
          aoi := message.aoi } := by
  simp [Start.tracker, Start.message, Codec.record, List.lookup_cons]

theorem tracker_workerCallback (message : Orchestrator.EchoWorkerCallbackMessage) :
    WorkerCallback.tracker (WorkerCallback.message.write message) =
      some
        { processingId := message.processingId
          workerId := message.workerId
          imageURL := message.imageURL
          trackerTotalWorkers := message.trackerTotalWorkers } := by
  simp [WorkerCallback.tracker, WorkerCallback.message, Codec.record, List.lookup_cons]

theorem tracker_mergeCallback (message : Image.EchoMergeCallbackMessage) :
    MergeCallback.tracker (MergeCallback.message.write message) =
      some
        { processingId := message.processingId
          imageURL := message.imageURL
          aoi := none } := by
  simp [MergeCallback.tracker, MergeCallback.message, Codec.record, List.lookup_cons,
    Codec.readNullable]

end EchoProcessing.Messaging
