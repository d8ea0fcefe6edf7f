/-
One delivery of a start message, from its first transaction to its last.

The transactions are committed one by one, so a delivery that throws leaves behind what
the earlier ones did. A delivery is a run of the delivery system whose other parts stand
still, and the sizes, the corners and the texts of its message alone decide on its outcome.
-/

import EchoProcessing.Orchestrator.Totals

namespace EchoProcessing.Orchestrator

open EchoWorkerRepository EchoWorkerService

/-- How a call ends: by a return or by an exception, the database as it is then, and the
messages that have been published. -/
structure Ended where
  outcome : Except Failure Unit
  db : Database
  published : List EchoWorkerMessage

namespace EchoService

/-- The loop over the copies. The first exception ends it. Each start uses the strategy of
its own turn, since the random strategy draws anew. -/
def startWorkers (strategies : ℕ → ErrorStrategy) (totalWorkers : ℤ) (db : Database) :
    List EchoWorker → Ended
  | [] => { outcome := .ok (), db := db, published := [] }
  | worker :: rest =>
      match EchoWorkerService.startEchoWorker (strategies 0) db worker totalWorkers with
      | .error failure => { outcome := .error failure, db := db, published := [] }
      | .ok (next, published) =>
          let ended := startWorkers (fun turn => strategies (turn + 1)) totalWorkers next rest
          { ended with published := published.toList ++ ended.published }

/-- A strategy answers for each source apart, so the first one can serve the creation too. -/
def start (strategies : ℕ → ErrorStrategy) (uuid : ℕ → String) (scan : Scan) (db : Database)
    (message : EchoStartMessage) : Ended :=
  match createOrchestrator db message with
  | .error failure => { outcome := .error failure, db := db, published := [] }
  | .ok (geoTransform, created) =>
      match createWorkers (strategies 0) uuid scan created message geoTransform with
      | .error failure => { outcome := .error failure, db := created, published := [] }
      | .ok (workers, inserted) => startWorkers strategies workers.length inserted workers

end EchoService

/-- The listener acknowledges its message when the call returns, and only then. -/
def Ended.acknowledged (ended : Ended) (message : EchoStartMessage) : List EchoStartMessage :=
  match ended.outcome with
  | .ok _ => [message]
  | .error _ => []

structure Reflects (system next : System) (handler : ℕ) (message : EchoStartMessage)
    (ended : Ended) : Prop where
  db : next.db = ended.db
  workerMessages : next.workerMessages = system.workerMessages ++ ended.published
  acknowledged : next.acknowledged = system.acknowledged ++ ended.acknowledged message
  handlers : next.handlers = Function.update system.handlers handler .idle

private theorem reflects_error (system : System) (handler : ℕ) (message : EchoStartMessage)
    (failure : Failure) :
    Reflects system (system.setHandler handler .idle) handler message
      { outcome := .error failure, db := system.db, published := [] } :=
  { db := rfl
    workerMessages := (List.append_nil _).symm
    acknowledged := (List.append_nil _).symm
    handlers := rfl }

private theorem Reflects.after {middle next : System} {handler : ℕ} {message : EchoStartMessage}
    {ended : Ended} (reflects : Reflects middle next handler message ended) (system : System)
    {sent : List EchoWorkerMessage} {phase : Handler}
    (workerMessages : middle.workerMessages = system.workerMessages ++ sent)
    (acknowledged : middle.acknowledged = system.acknowledged)
    (handlers : middle.handlers = Function.update system.handlers handler phase) :
    Reflects system next handler message { ended with published := sent ++ ended.published } :=
  { db := reflects.db
    workerMessages := by
      rw [reflects.workerMessages, workerMessages]
      exact List.append_assoc ..
    acknowledged := by
      rw [reflects.acknowledged, acknowledged]
      rfl
    handlers := by rw [reflects.handlers, handlers, Function.update_idem] }

private theorem startWorkers_runs (strategies : ℕ → ErrorStrategy) {system : System} {handler : ℕ}
    {message : EchoStartMessage} {totalWorkers : ℤ} {workers : List EchoWorker}
    (phase : system.handlers handler = .starting message totalWorkers workers) :
    ∃ events next, delivery.Runs system events next ∧
      (∀ event ∈ events, event.handler? = some handler) ∧
      Reflects system next handler message
        (EchoService.startWorkers strategies totalWorkers system.db workers) := by
  induction workers generalizing system strategies with
  | nil =>
      refine ⟨[.acknowledge handler], _, .single (Performs.acknowledge phase).step,
        List.forall_mem_singleton.mpr rfl, ?_⟩
      exact
        { db := rfl
          workerMessages := (List.append_nil _).symm
          acknowledged := rfl
          handlers := rfl }
  | cons worker rest ih =>
      unfold EchoService.startWorkers
      cases returned : EchoWorkerService.startEchoWorker (strategies 0) system.db worker
          totalWorkers with
      | error failure =>
          exact ⟨[.startEchoWorker handler (strategies 0) .committed], _,
            .single (Performs.workerRefused phase returned).step,
            List.forall_mem_singleton.mpr rfl, reflects_error system handler message failure⟩
      | ok result =>
          obtain ⟨database, published⟩ := result
          have started := (Performs.workerStarted phase returned).step
          have advanced : ({ system with
              workerMessages := system.workerMessages ++ published.toList
              db := database }.setHandler handler
                (.starting message totalWorkers rest)).handlers handler =
              .starting message totalWorkers rest := Function.update_self ..
          obtain ⟨events, next, onward, own, reflects⟩ :=
            ih (fun turn => strategies (turn + 1)) advanced
          exact ⟨_ :: events, next, .cons started onward, List.forall_mem_cons.mpr ⟨rfl, own⟩,
            reflects.after system rfl rfl rfl⟩

private theorem createWorkers_runs (strategies : ℕ → ErrorStrategy) (uuid : ℕ → String)
    (scan : Scan)
    {system : System} {handler : ℕ} {message : EchoStartMessage} {geoTransform : GeoTransform}
    (phase : system.handlers handler = .orchestrated message geoTransform) :
    ∃ events next, delivery.Runs system events next ∧
      (∀ event ∈ events, event.handler? = some handler) ∧
      Reflects system next handler message
        (match EchoService.createWorkers (strategies 0) uuid scan system.db message
            geoTransform with
          | .error failure => { outcome := .error failure, db := system.db, published := [] }
          | .ok (workers, inserted) =>
              EchoService.startWorkers strategies workers.length inserted workers) := by
  cases returned : EchoService.createWorkers (strategies 0) uuid scan system.db message
      geoTransform with
  | error failure =>
      exact ⟨[_], _, .single (Performs.workersRefused phase returned).step,
        List.forall_mem_singleton.mpr rfl, reflects_error system handler message failure⟩
  | ok result =>
      obtain ⟨workers, inserted⟩ := result
      have created := (Performs.workersCreated phase returned).step
      have advanced : ({ system with
          db := inserted
          insertions := system.insertions ++
            if existsByProcessingId system.db message.processingId then [] else [workers]
          }.setHandler handler (.starting message workers.length workers)).handlers handler =
          .starting message workers.length workers := Function.update_self ..
      obtain ⟨events, next, onward, own, reflects⟩ := startWorkers_runs strategies advanced
      exact ⟨_ :: events, next, .cons created onward, List.forall_mem_cons.mpr ⟨rfl, own⟩,
        reflects.after system (List.append_nil _).symm rfl rfl⟩

/-- A delivery that finds its handler free does what the call does, and nothing else. -/
theorem start_runs (strategies : ℕ → ErrorStrategy) (uuid : ℕ → String) (scan : Scan)
    {system : System} {handler : ℕ} (message : EchoStartMessage)
    (idle : system.handlers handler = .idle) :
    ∃ events next, delivery.Runs system (.receive handler message :: events) next ∧
      (∀ event ∈ events, event.handler? = some handler) ∧
      Reflects system next handler message
        (EchoService.start strategies uuid scan system.db message) := by
  have received : delivery.step system (.receive handler message) = some _ :=
    (Performs.receive idle).step
  have waiting : (system.setHandler handler (.received message)).handlers handler =
      .received message := Function.update_self ..
  unfold EchoService.start
  cases returned : EchoService.createOrchestrator system.db message with
  | error failure =>
      have refused := (Performs.orchestratorRefused waiting returned).step
      have reflects := reflects_error (system.setHandler handler (.received message)) handler
        message failure
      exact ⟨[_], _, .cons received (.single refused), List.forall_mem_singleton.mpr rfl,
        reflects.after system (List.append_nil _).symm rfl rfl⟩
  | ok result =>
      obtain ⟨geoTransform, database⟩ := result
      have created := (Performs.orchestratorCreated waiting returned).step
      have phase : ({ system.setHandler handler (.received message) with
          db := database }.setHandler handler
            (.orchestrated message geoTransform)).handlers handler =
          .orchestrated message geoTransform := Function.update_self ..
      obtain ⟨events, next, onward, own, reflects⟩ :=
        createWorkers_runs strategies uuid scan phase
      refine ⟨_ :: events, next, .cons received (.cons created onward),
        List.forall_mem_cons.mpr ⟨rfl, own⟩, ?_⟩
      exact reflects.after system (List.append_nil _).symm rfl (Function.update_idem ..)

namespace Sample

def secondThrows : ℕ → ErrorStrategy :=
  fun turn source => turn = 1 ∧ source = .afterProcessingWorkerInDatabase

end Sample

theorem start_runs_second_throws :
    ∃ events next, delivery.Runs (System.initial Database.empty)
        (.receive 0 Sample.twoTiles :: events) next ∧
      next.workerMessages.length = 1 ∧ next.acknowledged = [] ∧
      ∀ handler, next.handlers handler = .idle := by
  have idle : (System.initial Database.empty).handlers 0 = .idle := rfl
  obtain ⟨events, next, run, _, reflects⟩ :=
    start_runs Sample.secondThrows Sample.twoIds .insertionOrder Sample.twoTiles idle
  refine ⟨events, next, run, ?_, ?_, ?_⟩
  · rw [reflects.workerMessages]
    decide +kernel
  · rw [reflects.acknowledged]
    decide +kernel
  · intro handler
    rw [reflects.handlers]
    exact congrFun (Function.update_eq_self 0 (System.initial Database.empty).handlers) handler

/-- The drawn ids are pairwise distinct, and no stored worker has one of them. -/
structure NewIds (uuid : ℕ → String) (count : ℕ) (db : Database) : Prop where
  distinct : ((List.range count).map uuid).Nodup
  unused : ∀ row ∈ db.workers.rows, row.workerId ∉ (List.range count).map uuid

private theorem map_workerId_newWorkers (processingId imageURL : String) (uuid : ℕ → String)
    (grid : Grid) :
    (newWorkers processingId imageURL uuid grid).map EchoWorker.workerId =
      (List.range grid.cells.length).map uuid := by
  apply List.ext_getElem
  · simp [newWorkers]
  · intro index _ _
    simp [newWorkers, newWorker]

/-- The orchestrator row is refused for its texts only: where its id is taken, it is there. -/
theorem createOrchestrator_returns (db : Database) {message : EchoStartMessage}
    (fits : message.TextsFit) (geoTransform : GeoTransform) :
    ∃ next, EchoOrchestratorService.createOrchestrator db message.processingId message.imageURL
      message.imageSizeX message.imageSizeY geoTransform = .ok next := by
  unfold EchoOrchestratorService.createOrchestrator
  cases found : EchoOrchestratorRepository.findByProcessingId db message.processingId with
  | some row => exact ⟨db, rfl⟩
  | none =>
      exact EchoOrchestratorRepository.save_returns ⟨fits.processingId, fits.imageURL⟩ found

theorem saveAll_returns {uuid : ℕ → String} {db : Database} (processingId imageURL : String)
    {grid : Grid} (ids : NewIds uuid grid.cells.length db) :
    ∃ saved, saveAll db (newWorkers processingId imageURL uuid grid) = .ok saved := by
  have distinct : ((db.workers.rows ++ newWorkers processingId imageURL uuid grid).map
      EchoWorker.workerId).Nodup := by
    rw [List.map_append, map_workerId_newWorkers, List.nodup_append]
    refine ⟨db.workers.unique, ids.distinct, ?_⟩
    rintro _ stored _ drawn rfl
    obtain ⟨row, member, rfl⟩ := List.mem_map.mp stored
    exact ids.unused row member drawn
  have inserted : db.workers.insertAll? (newWorkers processingId imageURL uuid grid) =
      some { rows := _, unique := distinct } := dif_pos distinct
  unfold saveAll
  rw [inserted]
  exact ⟨_, rfl⟩

theorem createWorkers_returns {uuid : ℕ → String} (scan : Scan) {db : Database}
    (processingId imageURL : String) {grid : Grid} (ids : NewIds uuid grid.cells.length db) :
    ∃ result, createWorkers .none uuid scan db processingId imageURL grid = .ok result := by
  unfold createWorkers
  split
  · exact ⟨_, rfl⟩
  · obtain ⟨saved, savedEq⟩ := saveAll_returns processingId imageURL ids
    rw [savedEq]
    exact ⟨_, rfl⟩

private theorem startWorkers_returns (totalWorkers : ℤ) (db : Database)
    (workers : List EchoWorker) :
    (EchoService.startWorkers (fun _ => .none) totalWorkers db workers).outcome = .ok () := by
  induction workers generalizing db with
  | nil => rfl
  | cons worker rest ih =>
      unfold EchoService.startWorkers
      cases returned : EchoWorkerService.startEchoWorker .none db worker totalWorkers with
      | ok result => exact ih result.1
      | error failure =>
          unfold EchoWorkerService.startEchoWorker at returned
          split at returned <;> cases returned

/-- What `start` needs of a message: the corners that the transform reads, an image of at
least one pixel, and texts that fit their columns. -/
structure EchoStartMessage.Startable (message : EchoStartMessage) : Prop where
  sizeX : 0 < message.imageSizeX
  sizeY : 0 < message.imageSizeY
  upperLeft : message.aoi.upperLeft.isSome = true
  upperRight : message.aoi.upperRight.isSome = true
  lowerLeft : message.aoi.lowerLeft.isSome = true
  texts : message.TextsFit

theorem gridOf_of_nonpositive {message : EchoStartMessage} (geoTransform : GeoTransform)
    (nonpositive : message.imageSizeX ≤ 0 ∨ message.imageSizeY ≤ 0) :
    EchoService.gridOf message geoTransform = .error (.illegalState (some "Empty grid")) :=
  GridCoverage.split_error_of_nonpositive _ _ geoTransform nonpositive

def EchoStartMessage.HasCorners (message : EchoStartMessage) : Prop :=
  message.aoi.upperLeft.isSome = true ∧ message.aoi.upperRight.isSome = true ∧
    message.aoi.lowerLeft.isSome = true

theorem EchoStartMessage.Startable.hasCorners {message : EchoStartMessage}
    (startable : message.Startable) : message.HasCorners :=
  ⟨startable.upperLeft, startable.upperRight, startable.lowerLeft⟩

private theorem geoTransformOf_of_missing {message : EchoStartMessage}
    (missing : ¬message.HasCorners) :
    EchoService.geoTransformOf message = .error .nullPointer := by
  unfold EchoService.geoTransformOf GeoService.getGeoTransform
  split
  · rename_i upperRight upperLeft lowerLeft rightEq leftEq lowerEq
    unfold EchoStartMessage.HasCorners at missing
    rw [rightEq, leftEq, lowerEq] at missing
    exact absurd ⟨rfl, rfl, rfl⟩ missing
  · rfl

theorem geoTransformOf_ok_iff (message : EchoStartMessage) :
    (∃ geoTransform, EchoService.geoTransformOf message = .ok geoTransform) ↔
      message.HasCorners := by
  constructor
  · rintro ⟨geoTransform, transform⟩
    by_contra missing
    rw [geoTransformOf_of_missing missing] at transform
    cases transform
  · rintro ⟨left, right, lower⟩
    obtain ⟨upperLeft, leftEq⟩ := Option.isSome_iff_exists.mp left
    obtain ⟨upperRight, rightEq⟩ := Option.isSome_iff_exists.mp right
    obtain ⟨lowerLeft, lowerEq⟩ := Option.isSome_iff_exists.mp lower
    unfold EchoService.geoTransformOf GeoService.getGeoTransform
    rw [leftEq, rightEq, lowerEq]
    exact ⟨_, rfl⟩

theorem EchoStartMessage.Startable.gridFor {message : EchoStartMessage}
    (startable : message.Startable) : ∃ grid, GridFor message grid := by
  obtain ⟨geoTransform, transform⟩ := (geoTransformOf_ok_iff message).mpr startable.hasCorners
  exact ⟨_, geoTransform, transform, GridCoverage.split_ok_of_positive _ _ geoTransform
    (by have := startable.sizeX; omega) (by have := startable.sizeY; omega)⟩

theorem GridFor.startable {message : EchoStartMessage} {grid : Grid}
    (gridFor : GridFor message grid) (texts : message.TextsFit) : message.Startable := by
  obtain ⟨geoTransform, transform, split⟩ := gridFor
  obtain ⟨upperLeft, upperRight, lowerLeft⟩ :=
    (geoTransformOf_ok_iff message).mp ⟨geoTransform, transform⟩
  have sizes : ¬(message.imageSizeX ≤ 0 ∨ message.imageSizeY ≤ 0) := by
    intro nonpositive
    rw [gridOf_of_nonpositive geoTransform nonpositive] at split
    cases split
  exact
    { sizeX := by omega
      sizeY := by omega
      upperLeft := upperLeft
      upperRight := upperRight
      lowerLeft := lowerLeft
      texts := texts }

/-- The insertion of the orchestrator row is refused, at each delivery in the same way. -/
theorem start_of_unfit (strategies : ℕ → ErrorStrategy) (uuid : ℕ → String) (scan : Scan)
    {db : Database} {message : EchoStartMessage} (corners : message.HasCorners)
    (missing : EchoOrchestratorRepository.findByProcessingId db message.processingId = none)
    (unfit : ¬message.TextsFit) :
    EchoService.start strategies uuid scan db message =
      { outcome := .error .dataIntegrityViolation, db := db, published := [] } := by
  obtain ⟨geoTransform, transform⟩ := (geoTransformOf_ok_iff message).mpr corners
  have refused : EchoOrchestratorService.createOrchestrator db message.processingId
      message.imageURL message.imageSizeX message.imageSizeY geoTransform =
        .error .dataIntegrityViolation := by
    unfold EchoOrchestratorService.createOrchestrator EchoOrchestratorRepository.save
    rw [missing]
    exact if_neg (fun fits => unfit ⟨fits.1, fits.2⟩)
  unfold EchoService.start EchoService.createOrchestrator
  rw [transform]
  simp only [bind, Except.bind, refused]

theorem gridFor_of_start {strategies : ℕ → ErrorStrategy} {uuid : ℕ → String} {scan : Scan}
    {db : Database} {message : EchoStartMessage}
    (returned : (EchoService.start strategies uuid scan db message).outcome = .ok ()) :
    (∃ grid, GridFor message grid) ∧
      ((∃ row, EchoOrchestratorRepository.findByProcessingId db message.processingId =
        some row) ∨ message.TextsFit) := by
  unfold EchoService.start at returned
  cases orchestrated : EchoService.createOrchestrator db message with
  | error failure =>
      rw [orchestrated] at returned
      cases returned
  | ok result =>
      obtain ⟨geoTransform, created⟩ := result
      obtain ⟨transform, createdEq⟩ := EchoService.createOrchestrator_ok orchestrated
      constructor
      · cases listed : EchoService.createWorkers (strategies 0) uuid scan created message
            geoTransform with
        | error failure =>
            simp only [orchestrated, listed] at returned
            cases returned
        | ok workers =>
            obtain ⟨grid, gridEq, _⟩ := EchoService.createWorkers_ok listed
            exact ⟨grid, geoTransform, transform, gridEq⟩
      · obtain ⟨_, ⟨_, found⟩ | ⟨_, fits, _⟩⟩ := createOrchestrator_ok createdEq
        · exact Or.inl found
        · exact Or.inr ⟨fits.1, fits.2⟩

theorem start_returns {uuid : ℕ → String} (scan : Scan) {db : Database}
    {message : EchoStartMessage} (startable : message.Startable)
    (ids : NewIds uuid (tileCount message) db) :
    (EchoService.start (fun _ => .none) uuid scan db message).outcome = .ok () := by
  obtain ⟨grid, geoTransform, transform, gridEq⟩ := startable.gridFor
  obtain ⟨created, createdEq⟩ := createOrchestrator_returns db startable.texts geoTransform
  have createdIds : NewIds uuid grid.cells.length created := by
    rw [GridFor.length_cells ⟨_, transform, gridEq⟩]
    exact ⟨ids.distinct, (createOrchestrator_ok createdEq).1 ▸ ids.unused⟩
  obtain ⟨⟨workers, inserted⟩, listed⟩ := createWorkers_returns scan message.processingId
    message.imageURL createdIds
  unfold EchoService.start EchoService.createOrchestrator EchoService.createWorkers
  rw [transform]
  simp only [bind, Except.bind, createdEq, pure, Except.pure, gridEq, listed]
  exact startWorkers_returns _ _ _

theorem start_returns_iff {uuid : ℕ → String} (scan : Scan) {db : Database}
    {message : EchoStartMessage} (ids : NewIds uuid (tileCount message) db)
    (stored : ∀ row, EchoOrchestratorRepository.findByProcessingId db message.processingId =
      some row → message.TextsFit) :
    (EchoService.start (fun _ => .none) uuid scan db message).outcome = .ok () ↔
      message.Startable := by
  constructor
  · intro returned
    obtain ⟨⟨grid, gridFor⟩, ⟨row, found⟩ | texts⟩ := gridFor_of_start returned
    · exact gridFor.startable (stored row found)
    · exact gridFor.startable texts
  · exact fun startable => start_returns scan startable ids

structure Progressed (requests : List EchoStartMessage) (system : System) : Prop where
  owned : Owned system
  counted : Counted requests system
  acknowledged : ∀ message ∈ system.acknowledged, message.Startable

theorem Progressed.step {requests : List EchoStartMessage} {system next : System} {event : Event}
    (progressed : Progressed requests system) (requested : Requested requests event)
    (stepped : delivery.step system event = some next) : Progressed requests next := by
  have transition := step_transition stepped
  refine
    { owned := owned_step progressed.owned stepped
      counted := transition.counted progressed.owned requested progressed.counted
      acknowledged := ?_ }
  cases transition with
  | acknowledge phase =>
      intro message member
      rcases List.mem_append.mp member with earlier | last
      · exact progressed.acknowledged message earlier
      · obtain ⟨_, ⟨grid, gridFor, _⟩, _, texts⟩ := progressed.counted.facts phase
        rw [List.mem_singleton.mp last]
        exact gridFor.startable texts
  | _ => exact progressed.acknowledged

/-- A message that cannot be started is delivered for ever: no run acknowledges it. -/
theorem progressed_of_runs {requests : List EchoStartMessage} (distinct : DistinctIds requests)
    {events : List Event} (requested : ∀ event ∈ events, Requested requests event)
    {system : System} (reached : delivery.Runs (System.initial Database.empty) events system) :
    Progressed requests system :=
  reached.invariant_of_everyStep
    (fun _ _ _ progressed allowed stepped => progressed.step allowed stepped)
    { owned := owned_initial
      counted := counted_initial distinct
      acknowledged := fun _ member => by cases member }
    (delivery.everyStep_of_forall _ (fun event member _ => requested event member))

end EchoProcessing.Orchestrator
