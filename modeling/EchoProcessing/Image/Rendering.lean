/-
The GDAL programs of the worker and of the merger.

Both services open the file of their message to see whether there is work to do, and
publish a callback in either case. A file opens as soon as it was laid down, so a
redelivery after a crash reports a tile that was never rendered.
-/

import EchoProcessing.Library.WriteOnce
import EchoProcessing.Orchestrator.Delivery

namespace EchoProcessing.Image

open Orchestrator SkipIfExists

inductive GdalCall where
  | openDataset (url : String)
  | getDriverByName (name : String)
  /-- With as many bands as the dataset of `bandsOf` has. -/
  | create (url : String) (sizeX sizeY : ℤ) (bandsOf : String)
  | setProjection (code : String)
  | setGeoTransform (values : List ℚ)
  | warp (source targetSrs : String) (targetExtent : List ℚ)
  | buildVRT (url : String) (tiles : List String)
  /-- `delete` on the dataset: it is flushed and closed. -/
  | close (url : String)
deriving DecidableEq, Repr

structure EchoMergeCallbackMessage where
  processingId : String
  imageURL : String
deriving DecidableEq, Repr

/-- The values given to `-te`: the two corners of the tile. -/
def tileExtent (message : EchoWorkerMessage) : List ℚ :=
  let transform := message.geoTransform
  let lowerRight := GeoService.toGeo message.tileSizeX message.tileSizeY transform
  [transform.oriX, transform.oriY, lowerRight.x, lowerRight.y]

/-- The slow path of the worker's `start`. -/
def tileProgram (dataLocal : Bool) (message : EchoWorkerMessage) : Program GdalCall :=
  let source := getGdalURL dataLocal message.imageURL true
  let tile := getGdalURL dataLocal (tileURL message.processingId message.workerId) false
  let transform := message.geoTransform
  { prepare := [.openDataset source, .getDriverByName "GTiff"]
    layDown := .create tile message.tileSizeX message.tileSizeY source
    fill :=
      [.setProjection transform.crs.code,
        .setGeoTransform
          [transform.oriX, transform.resX, transform.skewX,
            transform.oriY, transform.skewY, transform.resY],
        .warp source transform.crs.code (tileExtent message)]
    finish := .close tile }

/-- A missing tile URL is concatenated as `null`. -/
def openedTile (dataLocal : Bool) (tileURL : Option String) : String :=
  getGdalURL dataLocal (tileURL.getD "null") true

/-- `createVRT` of the merger. -/
def resultProgram (dataLocal : Bool) (message : EchoMergeMessage) : Program GdalCall :=
  let result := getGdalURL dataLocal (resultURL message.processingId) false
  { prepare := message.tileURLs.map (fun url => .openDataset (openedTile dataLocal url))
    layDown := .buildVRT result (message.tileURLs.map (openedTile dataLocal))
    fill := []
    finish := .close result }

/-- The listeners of the workers, any number of them. -/
def workerJob (dataLocal : Bool) : Job EchoWorkerMessage String GdalCall :=
  { target := fun message => tileURL message.processingId message.workerId
    program := tileProgram dataLocal }

def mergerJob (dataLocal : Bool) : Job EchoMergeMessage String GdalCall :=
  { target := fun message => resultURL message.processingId
    program := resultProgram dataLocal }

/-- What the merger reports, whether it builds the result or finds it. -/
def mergeCallback (message : EchoMergeMessage) : EchoMergeCallbackMessage :=
  { processingId := message.processingId
    imageURL := resultURL message.processingId }

/-- Some execution has created the tile that the callback names, warped the image of its
message into it and closed it, and each one that has created it again since then has
finished it as well. -/
def TileWarped (dataLocal : Bool) (known : EchoWorkerMessage → Prop)
    (state : State EchoWorkerMessage String GdalCall) (message : EchoWorkerMessage) : Prop :=
  let tile := tileURL message.processingId message.workerId
  ∃ before writer after source first between,
    state.history tile = before ++ .finished writer :: after ∧
    (∀ earlier other later, after = earlier ++ .laidDown other :: later →
      .finished other ∈ later) ∧
    known source ∧ tileURL source.processingId source.workerId = tile ∧
    state.performed writer = first ++
      .create (getGdalURL dataLocal tile false) source.tileSizeX source.tileSizeY
        (getGdalURL dataLocal source.imageURL true) ::
      (between ++
        [.warp (getGdalURL dataLocal source.imageURL true) source.geoTransform.crs.code
          (tileExtent source), .close (getGdalURL dataLocal tile false)])

/-- Some execution has built the result that the callback names from the tiles of its message
and closed it, and each one that has built it again since then has finished it as well. -/
def ResultBuilt (dataLocal : Bool) (known : EchoMergeMessage → Prop)
    (state : State EchoMergeMessage String GdalCall) (message : EchoMergeMessage) : Prop :=
  let result := resultURL message.processingId
  ∃ before builder after source,
    state.history result = before ++ .finished builder :: after ∧
    (∀ earlier other later, after = earlier ++ .laidDown other :: later →
      .finished other ∈ later) ∧
    known source ∧ resultURL source.processingId = result ∧
    state.performed builder =
      source.tileURLs.map (fun url => .openDataset (openedTile dataLocal url)) ++
        [.buildVRT (getGdalURL dataLocal result false)
            (source.tileURLs.map (openedTile dataLocal)),
          .close (getGdalURL dataLocal result false)]

private theorem tileWarped_iff (dataLocal : Bool) {known : EchoWorkerMessage → Prop}
    {state : State EchoWorkerMessage String GdalCall}
    (recorded : Recorded (workerJob dataLocal) known state) (message : EchoWorkerMessage) :
    TileWarped dataLocal known state message ↔
      Produced (workerJob dataLocal) known state ((workerJob dataLocal).target message) := by
  constructor
  · rintro ⟨before, writer, after, _, _, _, split, again, _⟩
    exact (recorded.produced_iff _).mpr ⟨before, writer, after, split, again⟩
  · rintro ⟨before, writer, after, source, split, again, own, target, performed⟩
    refine ⟨before, writer, after, source,
      [.openDataset (getGdalURL dataLocal source.imageURL true), .getDriverByName "GTiff"],
      [.setProjection source.geoTransform.crs.code,
        .setGeoTransform
          [source.geoTransform.oriX, source.geoTransform.resX, source.geoTransform.skewX,
            source.geoTransform.oriY, source.geoTransform.skewY, source.geoTransform.resY]],
      split, again, own, target, ?_⟩
    have sameTile : tileURL message.processingId message.workerId =
        tileURL source.processingId source.workerId := target.symm
    rw [performed, sameTile]
    rfl

private theorem resultBuilt_iff (dataLocal : Bool) {known : EchoMergeMessage → Prop}
    {state : State EchoMergeMessage String GdalCall}
    (recorded : Recorded (mergerJob dataLocal) known state) (message : EchoMergeMessage) :
    ResultBuilt dataLocal known state message ↔
      Produced (mergerJob dataLocal) known state ((mergerJob dataLocal).target message) := by
  constructor
  · rintro ⟨before, builder, after, _, split, again, _⟩
    exact (recorded.produced_iff _).mpr ⟨before, builder, after, split, again⟩
  · rintro ⟨before, builder, after, source, split, again, own, target, performed⟩
    refine ⟨before, builder, after, source, split, again, own, target, ?_⟩
    have sameResult : resultURL message.processingId = resultURL source.processingId :=
      target.symm
    rw [performed, sameResult]
    rfl

/-- Every execution that reports next does so about a file that stands for its callback. -/
def Stands {μ : Type} (file : State μ String GdalCall → μ → Prop)
    (state : State μ String GdalCall) : Prop :=
  ∀ execution message, state.phases execution = .ready message → file state message

/-- Each report of the run is about such a file at that moment. -/
def ReportsStand {μ : Type} (job : Job μ String GdalCall)
    (file : State μ String GdalCall → μ → Prop) (events : List (SkipIfExists.Event μ)) : Prop :=
  ∀ before execution after state, events = before ++ .report execution :: after →
    job.machine.Runs State.initial before state →
    ∃ message, state.phases execution = .ready message ∧ file state message

/-- What one kind of executions needs for all of its callbacks to stand for their files. -/
theorem stands_iff_undisturbed {μ : Type} {job : Job μ String GdalCall}
    {file : State μ String GdalCall → μ → Prop} {events : List (SkipIfExists.Event μ)}
    {state : State μ String GdalCall}
    (fileIff : ∀ {current}, Recorded job (Known events) current → ∀ message,
      file current message ↔ Produced job (Known events) current (job.target message))
    (reached : job.machine.Runs State.initial events state) :
    (job.machine.EveryState (Stands file) State.initial events ↔
        job.machine.EveryStep (Undisturbed job) State.initial events) ∧
      (job.machine.EveryStep (Undisturbed job) State.initial events →
        ReportsStand job file events) := by
  have stands : job.machine.EveryState (Stands file) State.initial events ↔
      job.machine.EveryStep (Undisturbed job) State.initial events := by
    rw [← readyProduced_iff_undisturbed reached]
    apply Machine.everyState_congr
    intro before after current split toCurrent
    have recorded : Recorded job (Known events) current :=
      recorded_of_runs (fun event member => split ▸ List.mem_append_left after member) toCurrent
    unfold Stands ReadyProduced
    simp only [fileIff recorded]
  refine ⟨stands, ?_⟩
  intro undisturbed before execution after current split toCurrent
  subst split
  obtain ⟨next, stepped, _⟩ := reached.step_of_split toCurrent
  cases step_transition stepped with
  | @reported _ message phase =>
      exact ⟨message, phase,
        stands.mpr undisturbed before _ current rfl toCurrent execution message phase⟩

/-- The callbacks of the workers and of the merger name files that were rendered and built to
their end, in exactly the runs in which no test meets a file that is laid down only and no file
is laid down again under a report. -/
theorem callbacks_name_finished_files (dataLocal : Bool)
    {workerEvents : List (SkipIfExists.Event EchoWorkerMessage)}
    {mergerEvents : List (SkipIfExists.Event EchoMergeMessage)}
    {workers : State EchoWorkerMessage String GdalCall}
    {mergers : State EchoMergeMessage String GdalCall}
    (workersRun : (workerJob dataLocal).machine.Runs State.initial workerEvents workers)
    (mergersRun : (mergerJob dataLocal).machine.Runs State.initial mergerEvents mergers) :
    (((workerJob dataLocal).machine.EveryState (Stands (TileWarped dataLocal (Known workerEvents)))
          State.initial workerEvents ↔
        (workerJob dataLocal).machine.EveryStep (Undisturbed (workerJob dataLocal))
          State.initial workerEvents) ∧
      ((workerJob dataLocal).machine.EveryStep (Undisturbed (workerJob dataLocal))
          State.initial workerEvents →
        ReportsStand (workerJob dataLocal) (TileWarped dataLocal (Known workerEvents))
          workerEvents)) ∧
    (((mergerJob dataLocal).machine.EveryState (Stands (ResultBuilt dataLocal (Known mergerEvents)))
          State.initial mergerEvents ↔
        (mergerJob dataLocal).machine.EveryStep (Undisturbed (mergerJob dataLocal))
          State.initial mergerEvents) ∧
      ((mergerJob dataLocal).machine.EveryStep (Undisturbed (mergerJob dataLocal))
          State.initial mergerEvents →
        ReportsStand (mergerJob dataLocal) (ResultBuilt dataLocal (Known mergerEvents))
          mergerEvents)) :=
  ⟨stands_iff_undisturbed (fun recorded => tileWarped_iff dataLocal recorded) workersRun,
    stands_iff_undisturbed (fun recorded => resultBuilt_iff dataLocal recorded) mergersRun⟩

namespace Sample

open Orchestrator.Sample (workerMessage)

def mergeMessage : EchoMergeMessage :=
  { processingId := "p"
    tileURLs := [some (tileURL "p" "v"), some (tileURL "p" "w")]
    imageSizeX := 4000
    imageSizeY := 2000
    geoTransform := workerMessage.geoTransform }

def calls {μ : Type} (execution : ℕ) (message : μ) (count : ℕ) : List (SkipIfExists.Event μ) :=
  .deliver execution message :: .check execution :: List.replicate count (.call execution)

def rendered : List (SkipIfExists.Event EchoWorkerMessage) :=
  calls 0 workerMessage 7 ++ [.report 0]

def merged : List (SkipIfExists.Event EchoMergeMessage) :=
  calls 0 mergeMessage 4 ++ [.report 0]

/-- The first execution ends right after `Create`; the second one finds the file. -/
def crashedTile : List (SkipIfExists.Event EchoWorkerMessage) :=
  calls 0 workerMessage 3 ++ .crash 0 :: calls 1 workerMessage 0

/-- The first execution ends right after `BuildVRT`. -/
def crashedResult : List (SkipIfExists.Event EchoMergeMessage) :=
  calls 0 mergeMessage 3 ++ .crash 0 :: calls 1 mergeMessage 0

end Sample

theorem callbacks_name_finished_files_first_delivery :
    ReportsStand (workerJob true) (TileWarped true (Known Sample.rendered)) Sample.rendered ∧
      ReportsStand (mergerJob true) (ResultBuilt true (Known Sample.merged)) Sample.merged := by
  have workersEnabled :
      ((workerJob true).machine.run State.initial Sample.rendered).isSome = true := by decide
  have mergersEnabled :
      ((mergerJob true).machine.run State.initial Sample.merged).isSome = true := by decide
  have both := callbacks_name_finished_files true (Machine.runs_get _ workersEnabled)
    (Machine.runs_get _ mergersEnabled)
  have workersSingle : ∀ event ∈ Sample.rendered, event.execution = 0 := by decide
  have mergersSingle : ∀ event ∈ Sample.merged, event.execution = 0 := by decide
  exact ⟨both.1.2 (everyStep_undisturbed_of_single workersSingle),
    both.2.2 (everyStep_undisturbed_of_single mergersSingle)⟩

theorem not_reportsStand_of_found {μ : Type} {job : Job μ String GdalCall}
    {file : State μ String GdalCall → μ → Prop} {events : List (SkipIfExists.Event μ)} {message : μ}
    (finished : ∀ state, file state message →
      ∃ writer, .finished writer ∈ state.history (job.target message))
    (found : (job.machine.run State.initial events).map
      (fun state => (state.phases 1, state.history (job.target message))) =
        some (.ready message, [.laidDown 0])) :
    ¬ReportsStand job file (events ++ [.report 1]) := by
  intro always
  obtain ⟨state, reached, values⟩ := Option.map_eq_some_iff.mp found
  obtain ⟨ready, history⟩ := Prod.mk.inj values
  obtain ⟨own, ownReady, stands⟩ := always events 1 [] state rfl reached
  obtain rfl : message = own := Phase.ready.inj (ready.symm.trans ownReady)
  obtain ⟨writer, member⟩ := finished state stands
  rw [history] at member
  cases List.mem_singleton.mp member

/-- After a crash the redelivered message is answered with a callback for a file that no
execution has finished. -/
theorem redelivery_reports_unfinished_file :
    (∃ state, (workerJob true).machine.Runs State.initial
        (Sample.crashedTile ++ [.report 1]) state ∧
      state.reports = [Orchestrator.Sample.workerMessage]) ∧
    ¬ReportsStand (workerJob true) (TileWarped true (fun _ => True))
      (Sample.crashedTile ++ [.report 1]) ∧
    (∃ state, (mergerJob true).machine.Runs State.initial
        (Sample.crashedResult ++ [.report 1]) state ∧
      state.reports = [Sample.mergeMessage]) ∧
    ¬ReportsStand (mergerJob true) (ResultBuilt true (fun _ => True))
      (Sample.crashedResult ++ [.report 1]) := by
  have tileReported : ((workerJob true).machine.run State.initial
      (Sample.crashedTile ++ [.report 1])).map State.reports =
        some [Orchestrator.Sample.workerMessage] := by
    decide +kernel
  have resultReported : ((mergerJob true).machine.run State.initial
      (Sample.crashedResult ++ [.report 1])).map State.reports = some [Sample.mergeMessage] := by
    decide +kernel
  have tileFound : ((workerJob true).machine.run State.initial Sample.crashedTile).map
      (fun state => (state.phases 1,
        state.history ((workerJob true).target Orchestrator.Sample.workerMessage))) =
        some (.ready Orchestrator.Sample.workerMessage, [.laidDown 0]) := by
    decide +kernel
  have resultFound : ((mergerJob true).machine.run State.initial Sample.crashedResult).map
      (fun state => (state.phases 1, state.history ((mergerJob true).target Sample.mergeMessage))) =
        some (.ready Sample.mergeMessage, [.laidDown 0]) := by
    decide +kernel
  refine ⟨Option.map_eq_some_iff.mp tileReported, not_reportsStand_of_found ?_ tileFound,
    Option.map_eq_some_iff.mp resultReported, not_reportsStand_of_found ?_ resultFound⟩
  · rintro state ⟨before, writer, after, _, _, _, split, _⟩
    exact ⟨writer, split ▸ List.mem_append_right _ List.mem_cons_self⟩
  · rintro state ⟨before, builder, after, _, split, _⟩
    exact ⟨builder, split ▸ List.mem_append_right _ List.mem_cons_self⟩

end EchoProcessing.Image
