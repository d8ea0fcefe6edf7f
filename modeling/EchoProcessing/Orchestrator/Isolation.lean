/-
The orchestrator seen from one processing.

The methods are run on the database that holds the rows of the processing alone, and
return the same as on the whole one. A transaction of another processing writes none of
these rows, since a row belongs to the processing of each message that names it.
-/

import EchoProcessing.Orchestrator.Ownership

namespace EchoProcessing.Orchestrator

open EchoWorkerRepository EchoWorkerService

/-- The rows of one processing. -/
def Database.only (db : Database) (processingId : String) : Database :=
  { orchestrators := db.orchestrators.restrict (fun row => row.processingId = processingId)
    workers := db.workers.restrict (fun row => row.processingId = processingId) }

section Queries

variable (db : Database) (processingId : String)

theorem ofProcessing_only :
    ofProcessing (db.only processingId) processingId = ofProcessing db processingId := by
  change (ofProcessing db processingId).filter _ = _
  rw [List.filter_eq_self]
  intro row member
  exact decide_eq_true ((mem_ofProcessing _ _ _).mp member).2

private theorem existsByProcessingId_only :
    existsByProcessingId (db.only processingId) processingId =
      existsByProcessingId db processingId := by
  unfold existsByProcessingId
  rw [ofProcessing_only]

private theorem findByProcessingId_only (scan : Scan) :
    findByProcessingId scan (db.only processingId) processingId =
      findByProcessingId scan db processingId := by
  unfold EchoWorkerRepository.findByProcessingId
  rw [ofProcessing_only]

private theorem allDone_only :
    allDone (db.only processingId) processingId = allDone db processingId := by
  unfold allDone findDistinctStateByProcessingId
  rw [ofProcessing_only]

theorem findByProcessingId_orchestrator_only :
    EchoOrchestratorRepository.findByProcessingId (db.only processingId) processingId =
      EchoOrchestratorRepository.findByProcessingId db processingId :=
  KeyedTable.find?_restrict (fun _ _ same => decide_eq_true same)

private theorem findByWorkerId_only {workerId : String} {row : EchoWorker}
    (found : findByWorkerId db workerId = some row) (own : row.processingId = processingId) :
    findByWorkerId (db.only processingId) workerId = some row := by
  unfold findByWorkerId at found ⊢
  rw [← found]
  apply KeyedTable.find?_restrict
  intro other member same
  have sameRow : some other = some row :=
    ((db.workers.find?_eq_some_iff workerId other).mpr ⟨member, same⟩).symm.trans found
  rw [Option.some.inj sameRow]
  exact decide_eq_true own

end Queries

/-! ### Saves -/

section Saves

variable {db : Database} {copy : EchoWorker} {processingId : String}

private theorem workers_save_only (copies : db.Copies copy) :
    ∀ old ∈ db.workers.rows, old.workerId = copy.workerId →
      decide (copy.processingId = processingId) = decide (old.processingId = processingId) := by
  intro old member same
  rw [processingId_of_assignment (copies.assignment_eq member same)]

theorem Database.Copies.only (copies : db.Copies copy) (own : copy.processingId = processingId) :
    (db.only processingId).Copies copy := by
  obtain ⟨row, member, same⟩ := copies
  have rowOwn := (processingId_of_assignment same).trans own
  exact ⟨row, List.mem_filter.mpr ⟨member, decide_eq_true rowOwn⟩, same⟩

private theorem save_only (copies : db.Copies copy) (own : copy.processingId = processingId) :
    save (db.only processingId) copy = (save db copy).only processingId := by
  have workers : (save (db.only processingId) copy).workers =
      ((save db copy).only processingId).workers := by
    rw [workers_save (copies.only own)]
    change (db.workers.restrict _).replace copy = (save db copy).workers.restrict _
    rw [workers_save copies, KeyedTable.restrict_replace (workers_save_only copies)]
  exact congrArg (fun table => { (db.only processingId) with workers := table }) workers

private theorem save_only_of_ne (copies : db.Copies copy)
    (other : copy.processingId ≠ processingId) :
    (save db copy).only processingId = db.only processingId := by
  have workers : ((save db copy).only processingId).workers = (db.only processingId).workers := by
    change (save db copy).workers.restrict _ = db.workers.restrict _
    rw [workers_save copies]
    exact KeyedTable.restrict_replace_of_dropped (workers_save_only copies) (decide_eq_false other)
  exact congrArg (fun table => { (db.only processingId) with workers := table }) workers

private theorem only_of_orchestrator_append {next : Database} {row : EchoOrchestrator}
    (sameWorkers : next.workers = db.workers)
    (rows : next.orchestrators.rows = db.orchestrators.rows ++ [row])
    (other : row.processingId ≠ processingId) : next.only processingId = db.only processingId := by
  have same : next.orchestrators.restrict (fun row => row.processingId = processingId) =
      db.orchestrators.restrict (fun row => row.processingId = processingId) := by
    apply KeyedTable.restrict_of_append rows
    intro added member
    rw [List.mem_singleton.mp member]
    exact decide_eq_false other
  unfold Database.only
  rw [sameWorkers, same]

private theorem only_of_workers_append {next : Database} {workers : List EchoWorker}
    (sameOrchestrators : next.orchestrators = db.orchestrators)
    (rows : next.workers.rows = db.workers.rows ++ workers)
    (other : ∀ row ∈ workers, row.processingId ≠ processingId) :
    next.only processingId = db.only processingId := by
  have same : next.workers.restrict (fun row => row.processingId = processingId) =
      db.workers.restrict (fun row => row.processingId = processingId) :=
    KeyedTable.restrict_of_append rows (fun row member => decide_eq_false (other row member))
  unfold Database.only
  rw [sameOrchestrators, same]

end Saves

/-! ### The methods on the rows of their own processing -/

private theorem createOrchestrator_only (db : Database) (processingId imageUrl : String)
    (imageSizeX imageSizeY : ℤ) (geoTransform : GeoTransform) :
    EchoOrchestratorService.createOrchestrator (db.only processingId) processingId imageUrl
        imageSizeX imageSizeY geoTransform =
      (EchoOrchestratorService.createOrchestrator db processingId imageUrl imageSizeX imageSizeY
        geoTransform).map (fun next => next.only processingId) := by
  unfold EchoOrchestratorService.createOrchestrator
  rw [findByProcessingId_orchestrator_only]
  cases found : EchoOrchestratorRepository.findByProcessingId db processingId with
  | some row => rfl
  | none =>
      unfold EchoOrchestratorRepository.save
      have inserted : (db.only processingId).orchestrators.insertAll?
          [EchoOrchestratorService.newOrchestrator processingId imageUrl imageSizeX imageSizeY
            geoTransform] = _ :=
        KeyedTable.insertAll?_restrict
          (by
            intro row member
            rw [List.mem_singleton.mp member]
            exact decide_eq_true rfl)
          (by
            intro row _ dropped new newMember
            rw [List.mem_singleton.mp newMember]
            exact of_decide_eq_false dropped)
      rw [inserted]
      dsimp only
      split_ifs
      · cases db.orchestrators.insertAll? _ <;> rfl
      · rfl

private theorem EchoService.createOrchestrator_only (db : Database) (message : EchoStartMessage) :
    EchoService.createOrchestrator (db.only message.processingId) message =
      (EchoService.createOrchestrator db message).map
        (fun result => (result.1, result.2.only message.processingId)) := by
  unfold EchoService.createOrchestrator
  cases geoTransformOf message with
  | error failure => rfl
  | ok geoTransform =>
      simp only [bind, Except.bind, Orchestrator.createOrchestrator_only]
      cases EchoOrchestratorService.createOrchestrator db message.processingId message.imageURL
        message.imageSizeX message.imageSizeY geoTransform <;> rfl

private theorem createWorkers_only (strategy : ErrorStrategy) {uuid : ℕ → String} (scan : Scan)
    {db : Database} (processingId imageURL : String) (grid : Grid)
    (fresh : existsByProcessingId db processingId = false → ∀ row ∈ db.workers.rows,
      ∀ new ∈ newWorkers processingId imageURL uuid grid, row.workerId ≠ new.workerId) :
    createWorkers strategy uuid scan (db.only processingId) processingId imageURL grid =
      (createWorkers strategy uuid scan db processingId imageURL grid).map
        (fun result => (result.1, result.2.only processingId)) := by
  unfold createWorkers
  rw [existsByProcessingId_only, findByProcessingId_only]
  cases present : existsByProcessingId db processingId with
  | true => rfl
  | false =>
      have inserted : (db.only processingId).workers.insertAll?
          (newWorkers processingId imageURL uuid grid) = _ :=
        KeyedTable.insertAll?_restrict
          (fun row member => decide_eq_true (mem_newWorkers member).1)
          (fun row member _ => fresh present row member)
      unfold saveAll
      rw [inserted]
      cases db.workers.insertAll? (newWorkers processingId imageURL uuid grid) with
      | none => rfl
      | some stored =>
          cases applyErrorStrategy strategy .afterInitWorkersInDatabase <;> rfl

private theorem EchoService.createWorkers_only (strategy : ErrorStrategy) {uuid : ℕ → String}
    (scan : Scan) {db : Database} {message : EchoStartMessage} {geoTransform : GeoTransform}
    (fresh : ∀ grid, gridOf message geoTransform = .ok grid →
      existsByProcessingId db message.processingId = false → ∀ row ∈ db.workers.rows,
        ∀ new ∈ newWorkers message.processingId message.imageURL uuid grid,
          row.workerId ≠ new.workerId) :
    EchoService.createWorkers strategy uuid scan (db.only message.processingId) message
        geoTransform =
      (EchoService.createWorkers strategy uuid scan db message geoTransform).map
        (fun result => (result.1, result.2.only message.processingId)) := by
  unfold EchoService.createWorkers
  cases gridEq : gridOf message geoTransform with
  | error failure => rfl
  | ok grid => exact Orchestrator.createWorkers_only strategy scan _ _ grid (fresh grid gridEq)

private theorem startEchoWorker_only (strategy : ErrorStrategy) {db : Database}
    {echoWorker : EchoWorker}
    (totalWorkers : ℤ) {processingId : String} (copies : db.Copies echoWorker)
    (own : echoWorker.processingId = processingId) :
    startEchoWorker strategy (db.only processingId) echoWorker totalWorkers =
      (startEchoWorker strategy db echoWorker totalWorkers).map
        (fun result => (result.1.only processingId, result.2)) := by
  have saved : save (db.only processingId) (started echoWorker) =
      (save db (started echoWorker)).only processingId :=
    save_only (copies.of_assignment_eq rfl) own
  unfold startEchoWorker
  rw [saved]
  split
  · cases applyErrorStrategy strategy .afterProcessingWorkerInDatabase <;> rfl
  · rfl

private theorem callbackEchoWorker_only (scan : Scan) {db : Database}
    {processingId workerId : String}
    (tileURL : String) {row : EchoWorker} (found : findByWorkerId db workerId = some row)
    (own : row.processingId = processingId) :
    callbackEchoWorker scan (db.only processingId) processingId workerId tileURL =
      (callbackEchoWorker scan db processingId workerId tileURL).map
        (fun result => (result.1.only processingId, result.2)) := by
  have member := ((findByWorkerId_eq_some_iff _ _ _).mp found).1
  have saved : save (db.only processingId) (finished row tileURL) =
      (save db (finished row tileURL)).only processingId :=
    save_only ((Database.copies_of_mem member).of_assignment_eq rfl) own
  rw [callbackEchoWorker_of_found scan processingId tileURL found,
    callbackEchoWorker_of_found scan processingId tileURL
      (findByWorkerId_only db processingId found own), saved, allDone_only]
  split
  · have merged : publishMerge scan ((save db (finished row tileURL)).only processingId)
        processingId (finished row tileURL) =
        publishMerge scan (save db (finished row tileURL)) processingId
          (finished row tileURL) := by
      unfold publishMerge
      rw [findByProcessingId_orchestrator_only, findByProcessingId_only]
    rw [merged]
    cases publishMerge scan (save db (finished row tileURL)) processingId
      (finished row tileURL) <;> rfl
  · rfl

/-! ### What the system of one processing has in common with the whole one -/

def Handler.processingId? : Handler → Option String
  | .idle => none
  | .received message => some message.processingId
  | .orchestrated message _ => some message.processingId
  | .starting message _ _ => some message.processingId

/-- A handler that is busy with a message of another processing is idle for this one. -/
def Handler.only (phase : Handler) (processingId : String) : Handler :=
  if phase.processingId? = some processingId then phase else .idle

private theorem Handler.only_of_eq {phase : Handler} {processingId : String}
    (own : phase.processingId? = some processingId) : phase.only processingId = phase :=
  if_pos own

private theorem Handler.only_of_ne {phase : Handler} {processingId : String}
    (other : phase.processingId? ≠ some processingId) : phase.only processingId = .idle :=
  if_neg other

@[simp]
theorem Handler.only_idle (processingId : String) : Handler.idle.only processingId = .idle :=
  if_neg (fun same => by cases same)

/-- The processing whose message an event handles. -/
def Event.processingId? (system : System) : Event → Option String
  | .receive _ message => some message.processingId
  | .createOrchestrator handler => (system.handlers handler).processingId?
  | .createWorkers handler _ _ _ => (system.handlers handler).processingId?
  | .startEchoWorker handler _ _ => (system.handlers handler).processingId?
  | .acknowledge handler => (system.handlers handler).processingId?
  | .stop handler => (system.handlers handler).processingId?
  | .work message => some message.processingId
  | .callback message _ _ => some message.processingId

/-- The ids that the transaction draws: none where the processing has its workers. -/
def System.drawnWorkerIds (system : System) (handler : ℕ) (uuid : ℕ → String) : List String :=
  match system.handlers handler with
  | .orchestrated message geoTransform =>
      match EchoService.gridOf message geoTransform with
      | .error _ => []
      | .ok grid =>
          if existsByProcessingId system.db message.processingId then []
          else (newWorkers message.processingId message.imageURL uuid grid).map EchoWorker.workerId
  | _ => []

/-- No worker that is stored has an id that the event draws. -/
def Event.DrawsNewIds (system : System) : Event → Prop
  | .createWorkers handler _ uuid _ =>
      ∀ row ∈ system.db.workers.rows, row.workerId ∉ system.drawnWorkerIds handler uuid
  | _ => True

instance (event : Event) (system : System) : Decidable (event.DrawsNewIds system) :=
  match event with
  | .createWorkers handler _ uuid _ => inferInstanceAs (Decidable
      (∀ row ∈ system.db.workers.rows, row.workerId ∉ system.drawnWorkerIds handler uuid))
  | .receive _ _ => .isTrue trivial
  | .createOrchestrator _ => .isTrue trivial
  | .startEchoWorker _ _ _ => .isTrue trivial
  | .acknowledge _ => .isTrue trivial
  | .stop _ => .isTrue trivial
  | .work _ => .isTrue trivial
  | .callback _ _ _ => .isTrue trivial

/-- The image holds the part of one processing, in the order of the whole system. -/
structure Mirrors (processingId : String) (system image : System) : Prop where
  db : image.db = system.db.only processingId
  handlers : ∀ handler, image.handlers handler = (system.handlers handler).only processingId
  workerMessages : image.workerMessages =
    system.workerMessages.filter (fun message => message.processingId = processingId)
  callbackMessages : image.callbackMessages =
    system.callbackMessages.filter (fun message => message.processingId = processingId)
  mergeMessages : image.mergeMessages =
    system.mergeMessages.filter (fun message => message.processingId = processingId)

theorem mirrors_initial (processingId : String) :
    Mirrors processingId (System.initial Database.empty) (System.initial Database.empty) :=
  { db := rfl
    handlers := fun _ => (Handler.only_idle processingId).symm
    workerMessages := rfl
    callbackMessages := rfl
    mergeMessages := rfl }

namespace Mirrors

variable {processingId : String} {system image : System}

theorem processingId?_eq (mirrors : Mirrors processingId system image) {event : Event}
    (own : event.processingId? system = some processingId) :
    event.processingId? image = some processingId := by
  have handled : ∀ handler, (system.handlers handler).processingId? = some processingId →
      (image.handlers handler).processingId? = some processingId := by
    intro handler same
    rw [mirrors.handlers, Handler.only_of_eq same, same]
  cases event with
  | receive handler message => exact own
  | work message => exact own
  | callback message scan outcome => exact own
  | _ => exact handled _ own

theorem handler_eq (mirrors : Mirrors processingId system image) {handler : ℕ}
    (own : (system.handlers handler).processingId? = some processingId) :
    image.handlers handler = system.handlers handler := by
  rw [mirrors.handlers, Handler.only_of_eq own]

theorem setHandler (mirrors : Mirrors processingId system image) (handler : ℕ)
    {phase imagePhase : Handler} (same : imagePhase = phase.only processingId) :
    Mirrors processingId (system.setHandler handler phase) (image.setHandler handler imagePhase) :=
  { mirrors with
    handlers := by
      intro other
      by_cases here : other = handler
      · subst here
        simp only [System.setHandler, Function.update_self, same]
      · simp only [System.setHandler, Function.update_of_ne here, mirrors.handlers other] }

theorem setHandler_unseen (mirrors : Mirrors processingId system image) {handler : ℕ}
    {phase : Handler} (before : (system.handlers handler).processingId? ≠ some processingId)
    (after : phase.processingId? ≠ some processingId) :
    Mirrors processingId (system.setHandler handler phase) image :=
  { mirrors with
    handlers := by
      intro other
      by_cases here : other = handler
      · subst here
        simp only [System.setHandler, Function.update_self, mirrors.handlers other,
          Handler.only_of_ne before, Handler.only_of_ne after]
      · simp only [System.setHandler, Function.update_of_ne here, mirrors.handlers other] }

theorem mem_callbackMessages (mirrors : Mirrors processingId system image)
    {message : EchoWorkerCallbackMessage} (published : message ∈ system.callbackMessages)
    (own : message.processingId = processingId) : message ∈ image.callbackMessages := by
  rw [mirrors.callbackMessages]
  exact List.mem_filter.mpr ⟨published, decide_eq_true own⟩

theorem mem_workerMessages (mirrors : Mirrors processingId system image)
    {message : EchoWorkerMessage} (published : message ∈ system.workerMessages)
    (own : message.processingId = processingId) : message ∈ image.workerMessages := by
  rw [mirrors.workerMessages]
  exact List.mem_filter.mpr ⟨published, decide_eq_true own⟩

theorem setDatabase (mirrors : Mirrors processingId system image) (next : Database) :
    Mirrors processingId { system with db := next }
      { image with db := next.only processingId } :=
  { mirrors with db := rfl }

theorem setDatabase_unseen (mirrors : Mirrors processingId system image) {next : Database}
    (same : next.only processingId = system.db.only processingId) :
    Mirrors processingId { system with db := next } image :=
  { mirrors with db := mirrors.db.trans same.symm }

theorem publishWorker (mirrors : Mirrors processingId system image)
    {message : EchoWorkerMessage} (own : message.processingId = processingId) :
    Mirrors processingId
      { system with workerMessages := system.workerMessages ++ [message] }
      { image with workerMessages := image.workerMessages ++ [message] } :=
  { mirrors with
    workerMessages := by simp [mirrors.workerMessages, own] }

private theorem publishWorker_unseen (mirrors : Mirrors processingId system image)
    {message : EchoWorkerMessage} (other : message.processingId ≠ processingId) :
    Mirrors processingId { system with workerMessages := system.workerMessages ++ [message] }
      image :=
  { mirrors with
    workerMessages := by simp [mirrors.workerMessages, other] }

theorem publishCallback (mirrors : Mirrors processingId system image)
    {message : EchoWorkerCallbackMessage} (own : message.processingId = processingId) :
    Mirrors processingId
      { system with callbackMessages := system.callbackMessages ++ [message] }
      { image with callbackMessages := image.callbackMessages ++ [message] } :=
  { mirrors with
    callbackMessages := by simp [mirrors.callbackMessages, own] }

theorem publishCallback_unseen (mirrors : Mirrors processingId system image)
    {message : EchoWorkerCallbackMessage} (other : message.processingId ≠ processingId) :
    Mirrors processingId
      { system with callbackMessages := system.callbackMessages ++ [message] } image :=
  { mirrors with
    callbackMessages := by simp [mirrors.callbackMessages, other] }

end Mirrors

/-! ### The transactions of the processing itself -/

namespace Mirrors

variable {processingId : String} {system image next : System}

theorem release (mirrors : Mirrors processingId system image) (handler : ℕ) :
    Mirrors processingId (system.setHandler handler .idle) (image.setHandler handler .idle) :=
  mirrors.setHandler handler (Handler.only_idle processingId).symm

theorem createOrchestrator (mirrors : Mirrors processingId system image) {handler : ℕ}
    (own : (system.handlers handler).processingId? = some processingId)
    (performs : Performs system (.createOrchestrator handler) next) :
    ∃ nextImage, Performs image (.createOrchestrator handler) nextImage ∧
      Mirrors processingId next nextImage := by
  have samePhase := mirrors.handler_eq own
  cases performs with
  | @orchestratorRefused handler message failure phase returned =>
      rw [phase] at own samePhase
      obtain rfl := Option.some.inj own
      have onImage := EchoService.createOrchestrator_only system.db message
      rw [returned, ← mirrors.db] at onImage
      exact ⟨_, .orchestratorRefused samePhase onImage, mirrors.release handler⟩
  | @orchestratorCreated handler message geoTransform database phase returned =>
      rw [phase] at own samePhase
      obtain rfl := Option.some.inj own
      have onImage := EchoService.createOrchestrator_only system.db message
      rw [returned, ← mirrors.db] at onImage
      exact ⟨_, .orchestratorCreated samePhase onImage,
        (mirrors.setDatabase database).setHandler handler (Handler.only_of_eq rfl).symm⟩

private theorem drawn_apart {handler : ℕ} {strategy : ErrorStrategy} {uuid : ℕ → String}
    {scan : Scan} {message : EchoStartMessage} {geoTransform : GeoTransform}
    (fresh : (Event.createWorkers handler strategy uuid scan).DrawsNewIds system)
    (phase : system.handlers handler = .orchestrated message geoTransform) (grid : Grid)
    (gridEq : EchoService.gridOf message geoTransform = .ok grid)
    (absent : existsByProcessingId system.db message.processingId = false) :
    ∀ row ∈ system.db.workers.rows,
      ∀ new ∈ newWorkers message.processingId message.imageURL uuid grid,
        row.workerId ≠ new.workerId := by
  intro row member new newMember same
  have drawn := fresh row member
  simp only [System.drawnWorkerIds, phase, gridEq, absent, Bool.false_eq_true, if_false]
    at drawn
  exact drawn (same ▸ List.mem_map_of_mem newMember)

theorem createWorkers (mirrors : Mirrors processingId system image) {handler : ℕ}
    {strategy : ErrorStrategy} {uuid : ℕ → String} {scan : Scan}
    (fresh : (Event.createWorkers handler strategy uuid scan).DrawsNewIds system)
    (own : (system.handlers handler).processingId? = some processingId)
    (performs : Performs system (.createWorkers handler strategy uuid scan) next) :
    ∃ nextImage, Performs image (.createWorkers handler strategy uuid scan) nextImage ∧
      Mirrors processingId next nextImage := by
  have samePhase := mirrors.handler_eq own
  cases performs with
  | @workersRefused handler strategy uuid scan message geoTransform failure phase returned =>
      rw [phase] at own samePhase
      obtain rfl := Option.some.inj own
      have onImage := EchoService.createWorkers_only strategy scan (drawn_apart fresh phase)
      rw [returned, ← mirrors.db] at onImage
      exact ⟨_, .workersRefused samePhase onImage, mirrors.release handler⟩
  | @workersCreated handler strategy uuid scan message geoTransform workers database phase
      returned =>
      rw [phase] at own samePhase
      obtain rfl := Option.some.inj own
      have onImage := EchoService.createWorkers_only strategy scan (drawn_apart fresh phase)
      rw [returned, ← mirrors.db] at onImage
      have stored := mirrors.setDatabase database
      refine ⟨_, .workersCreated samePhase onImage,
        Mirrors.setHandler ?_ handler (Handler.only_of_eq rfl).symm⟩
      exact { stored with }

theorem publishStarted (mirrors : Mirrors processingId system image) {strategy : ErrorStrategy}
    {worker : EchoWorker} {totalWorkers : ℤ} {database : Database}
    {published : Option EchoWorkerMessage} (own : worker.processingId = processingId)
    (returned : EchoWorkerService.startEchoWorker strategy system.db worker totalWorkers =
      .ok (database, published)) :
    Mirrors processingId
      { system with workerMessages := system.workerMessages ++ published.toList }
      { image with workerMessages := image.workerMessages ++ published.toList } := by
  rcases startEchoWorker_ok returned with ⟨_, _, rfl⟩ | ⟨_, _, rfl⟩
  · rw [Option.toList_none, List.append_nil, List.append_nil]
    exact mirrors
  · exact mirrors.publishWorker own

theorem startEchoWorker (mirrors : Mirrors processingId system image) (owned : Owned system)
    {handler : ℕ} {strategy : ErrorStrategy} {outcome : Outcome}
    (own : (system.handlers handler).processingId? = some processingId)
    (performs : Performs system (.startEchoWorker handler strategy outcome) next) :
    ∃ nextImage, Performs image (.startEchoWorker handler strategy outcome) nextImage ∧
      Mirrors processingId next nextImage := by
  have samePhase := mirrors.handler_eq own
  have onImage : ∀ {message totalWorkers worker rest},
      system.handlers handler = .starting message totalWorkers (worker :: rest) →
      message.processingId = processingId ∧ worker.processingId = processingId ∧
        EchoWorkerService.startEchoWorker strategy image.db worker totalWorkers =
          (EchoWorkerService.startEchoWorker strategy system.db worker totalWorkers).map
            (fun result => (result.1.only processingId, result.2)) := by
    intro message totalWorkers worker rest phase
    obtain ⟨copies, workerOwn⟩ := owned.head phase
    rw [phase] at own
    obtain rfl := Option.some.inj own
    rw [mirrors.db]
    exact ⟨rfl, workerOwn, startEchoWorker_only strategy totalWorkers copies workerOwn⟩
  cases performs with
  | workerRefused phase returned =>
      have same := (onImage phase).2.2
      rw [returned] at same
      exact ⟨_, .workerRefused (samePhase.trans phase) same, mirrors.release handler⟩
  | @workerStarted handler strategy message totalWorkers worker rest database published phase
      returned =>
      obtain ⟨messageOwn, workerOwn, same⟩ := onImage phase
      rw [returned] at same
      have sent := mirrors.publishStarted workerOwn returned
      have kept : (Handler.starting message totalWorkers rest).only processingId =
          .starting message totalWorkers rest := Handler.only_of_eq (congrArg some messageOwn)
      exact ⟨_, .workerStarted (samePhase.trans phase) same,
        (sent.setDatabase database).setHandler handler kept.symm⟩
  | workerRolledBack phase returned =>
      obtain ⟨_, workerOwn, same⟩ := onImage phase
      rw [returned] at same
      exact ⟨_, .workerRolledBack (samePhase.trans phase) same,
        (mirrors.publishStarted workerOwn returned).release handler⟩

theorem publishMerged (mirrors : Mirrors processingId system image) (owned : Owned system)
    {message : EchoWorkerCallbackMessage} {scan : Scan} {database : Database}
    {merge : Option EchoMergeMessage} (published : message ∈ system.callbackMessages)
    (own : message.processingId = processingId)
    (returned : callbackEchoWorker scan system.db message.processingId message.workerId
      message.imageURL = .ok (database, merge)) :
    Mirrors processingId
      { system with
        delivered := system.delivered ++ [message]
        mergeMessages := system.mergeMessages ++ merge.toList }
      { image with
        delivered := image.delivered ++ [message]
        mergeMessages := image.mergeMessages ++ merge.toList } := by
  obtain ⟨decided, sameReturn, decides⟩ := callback_outcome owned.consistent published scan
  rw [returned] at sameReturn
  cases sameReturn
  have merges : ∀ sent ∈ merge.toList, sent.processingId = processingId := by
    intro sent member
    obtain rfl := Option.mem_toList.mp member
    rcases decides with ⟨impossible, _⟩ | ⟨_, same, _, sameProcessing, _⟩
    · cases impossible
    · rw [Option.some.inj same, sameProcessing, own]
  have kept : merge.toList.filter (fun sent => sent.processingId = processingId) =
      merge.toList := by
    rw [List.filter_eq_self]
    exact fun sent member => decide_eq_true (merges sent member)
  exact
    { mirrors with
      mergeMessages := by rw [List.filter_append, kept, mirrors.mergeMessages] }

theorem callback (mirrors : Mirrors processingId system image) (owned : Owned system)
    {message : EchoWorkerCallbackMessage} {scan : Scan} {outcome : Outcome}
    (own : message.processingId = processingId)
    (performs : Performs system (.callback message scan outcome) next) :
    ∃ nextImage, Performs image (.callback message scan outcome) nextImage ∧
      Mirrors processingId next nextImage := by
  have onImage : message ∈ system.callbackMessages →
      callbackEchoWorker scan image.db message.processingId message.workerId message.imageURL =
        (callbackEchoWorker scan system.db message.processingId message.workerId
          message.imageURL).map (fun result => (result.1.only processingId, result.2)) := by
    intro published
    obtain ⟨row, found, rowOwn⟩ := owned.consistent.row_of_callback published
    subst own
    rw [mirrors.db]
    exact callbackEchoWorker_only scan message.imageURL found rowOwn
  cases performs with
  | callbackRefused published returned =>
      have same := onImage published
      rw [returned] at same
      exact ⟨_, .callbackRefused (mirrors.mem_callbackMessages published own) same,
        { mirrors with }⟩
  | @callbackReturned _ _ database _ published returned =>
      have same := onImage published
      rw [returned] at same
      exact ⟨_, .callbackReturned (mirrors.mem_callbackMessages published own) same,
        (mirrors.publishMerged owned published own returned).setDatabase database⟩
  | callbackRolledBack published returned =>
      have same := onImage published
      rw [returned] at same
      exact ⟨_, .callbackRolledBack (mirrors.mem_callbackMessages published own) same,
        mirrors.publishMerged owned published own returned⟩

theorem performed (mirrors : Mirrors processingId system image) (owned : Owned system)
    {event : Event} (fresh : event.DrawsNewIds system)
    (own : event.processingId? system = some processingId)
    (performs : Performs system event next) :
    ∃ nextImage, Performs image event nextImage ∧ Mirrors processingId next nextImage := by
  cases event with
  | receive handler message =>
      cases performs with
      | receive idle =>
          have imageIdle : image.handlers handler = .idle := by
            rw [mirrors.handlers, idle, Handler.only_idle]
          have kept : (Handler.received message).only processingId = .received message :=
            Handler.only_of_eq own
          exact ⟨_, .receive imageIdle, mirrors.setHandler handler kept.symm⟩
  | createOrchestrator handler => exact mirrors.createOrchestrator own performs
  | createWorkers handler strategy uuid scan => exact mirrors.createWorkers fresh own performs
  | startEchoWorker handler strategy outcome => exact mirrors.startEchoWorker owned own performs
  | acknowledge handler =>
      cases performs with
      | @acknowledge handler message totalWorkers phase =>
          have acknowledged : Mirrors processingId
              { system with acknowledged := system.acknowledged ++ [message] }
              { image with acknowledged := image.acknowledged ++ [message] } := { mirrors with }
          exact ⟨_, .acknowledge ((mirrors.handler_eq own).trans phase),
            acknowledged.release handler⟩
  | stop handler =>
      cases performs with
      | stop => exact ⟨_, .stop, mirrors.release handler⟩
  | work message =>
      cases performs with
      | work published =>
          have imagePublished := mirrors.mem_workerMessages published (Option.some.inj own)
          exact ⟨_, .work imagePublished, mirrors.publishCallback (Option.some.inj own)⟩
  | callback message scan outcome => exact mirrors.callback owned (Option.some.inj own) performs

/-- The own transactions of a processing are enabled on its part, and do the same there. -/
theorem matched (mirrors : Mirrors processingId system image) (owned : Owned system)
    {event : Event}
    (fresh : event.DrawsNewIds system)
    (own : event.processingId? system = some processingId)
    (stepped : delivery.step system event = some next) :
    ∃ nextImage, delivery.step image event = some nextImage ∧
      Mirrors processingId next nextImage := by
  obtain ⟨nextImage, performs, mirrored⟩ :=
    mirrors.performed owned fresh own (step_performs stepped)
  exact ⟨nextImage, performs.step, mirrored⟩

/-! ### The transactions of the others -/

private theorem ne_of_phase {handler : ℕ} {phase : Handler} {owner : String}
    (found : system.handlers handler = phase) (ofOwner : phase.processingId? = some owner)
    (other : (system.handlers handler).processingId? ≠ some processingId) :
    owner ≠ processingId := by
  rintro rfl
  exact other (found ▸ ofOwner)

private theorem advance_unseen (mirrors : Mirrors processingId system image) {handler : ℕ}
    {before after : Handler} (other : (system.handlers handler).processingId? ≠ some processingId)
    (phase : system.handlers handler = before)
    (same : after.processingId? = before.processingId?) :
    Mirrors processingId (system.setHandler handler after) image :=
  mirrors.setHandler_unseen other (by rw [same, ← phase]; exact other)

private theorem release_unseen (mirrors : Mirrors processingId system image) {handler : ℕ}
    (other : (system.handlers handler).processingId? ≠ some processingId) :
    Mirrors processingId (system.setHandler handler .idle) image :=
  mirrors.setHandler_unseen other (fun same => by cases same)

private theorem callback_unseen (mirrors : Mirrors processingId system image) (owned : Owned system)
    {message : EchoWorkerCallbackMessage} {scan : Scan} {outcome : Outcome}
    (other : message.processingId ≠ processingId)
    (stepped : delivery.step system (.callback message scan outcome) = some next) :
    Mirrors processingId next image := by
  obtain ⟨published, merge, decides, rfl⟩ := callback_step owned.consistent stepped
  have updated : (ownUpdate system.db message).only processingId =
      system.db.only processingId := by
    obtain ⟨row, found, rowOwn⟩ := owned.consistent.row_of_callback published
    have member := ((findByWorkerId_eq_some_iff _ _ _).mp found).1
    unfold ownUpdate
    rw [found]
    exact save_only_of_ne ((Database.copies_of_mem member).of_assignment_eq rfl)
      (fun same => other (rowOwn.symm.trans same))
  have dropped : merge.toList.filter (fun sent => sent.processingId = processingId) = [] := by
    rw [List.filter_eq_nil_iff]
    intro sent member own
    obtain rfl := Option.mem_toList.mp member
    rcases decides with ⟨impossible, _⟩ | ⟨decided, same, _, sameProcessing, _⟩
    · cases impossible
    · rw [Option.some.inj same, sameProcessing] at own
      exact other (of_decide_eq_true own)
  refine
    { mirrors with
      db := ?_
      mergeMessages := by rw [List.filter_append, dropped, List.append_nil, mirrors.mergeMessages] }
  cases outcome with
  | committed => exact mirrors.db.trans updated.symm
  | rolledBack => exact mirrors.db

/-- No transaction of another processing touches the rows or the messages of this one. -/
theorem unseen (mirrors : Mirrors processingId system image) (owned : Owned system)
    {event : Event} (other : event.processingId? system ≠ some processingId)
    (stepped : delivery.step system event = some next) : Mirrors processingId next image := by
  cases step_transition stepped with
  | receive idle =>
      refine mirrors.setHandler_unseen ?_ other
      rw [idle]
      exact fun same => by cases same
  | @giveUp _ handler advances =>
      cases event with
      | receive own message =>
          obtain ⟨idle, _⟩ := Option.ite_none_right_eq_some.mp stepped
          cases advances
          refine mirrors.release_unseen ?_
          rw [idle]
          exact fun same => by cases same
      | work message => cases advances
      | callback message scan outcome => cases advances
      | _ =>
          cases advances
          exact mirrors.release_unseen other
  | orchestratorFound phase transform found => exact mirrors.advance_unseen other phase rfl
  | orchestratorInserted phase transform missing sameWorkers rowKey rows =>
      have foreign := ne_of_phase phase rfl other
      have same := only_of_orchestrator_append sameWorkers rows
        (fun own => foreign (rowKey.symm.trans own))
      exact (mirrors.setDatabase_unseen same).advance_unseen other phase rfl
  | workersRead phase gridEq present => exact mirrors.advance_unseen other phase rfl
  | @workersInserted handler strategy uuid message geoTransform database scan grid workers phase
      gridEq absent workersEq sameOrchestrators rows =>
      have foreign := ne_of_phase phase rfl other
      have same : database.only processingId = system.db.only processingId := by
        apply only_of_workers_append sameOrchestrators rows
        intro row member own
        exact foreign ((mem_newWorkers (workersEq ▸ member)).1.symm.trans own)
      have logged : Mirrors processingId { system with
          db := database, insertions := system.insertions ++ [workers] } image :=
        { mirrors.setDatabase_unseen same with }
      exact logged.advance_unseen other phase rfl
  | startSkipped phase leftInit => exact mirrors.advance_unseen other phase rfl
  | @startCommitted handler strategy message totalWorkers worker rest phase initial =>
      obtain ⟨copies, workerOwn⟩ := owned.head phase
      have different : (workerMessage worker totalWorkers).processingId ≠ processingId :=
        fun own => ne_of_phase phase rfl other (workerOwn.symm.trans own)
      have startedCopies : system.db.Copies (started worker) := copies.of_assignment_eq rfl
      have stored := mirrors.setDatabase_unseen (save_only_of_ne startedCopies different)
      exact (stored.publishWorker_unseen different).advance_unseen other phase rfl
  | @startRolledBack handler strategy message totalWorkers worker rest phase initial =>
      obtain ⟨_, workerOwn⟩ := owned.head phase
      have different : (workerMessage worker totalWorkers).processingId ≠ processingId :=
        fun own => ne_of_phase phase rfl other (workerOwn.symm.trans own)
      exact (mirrors.publishWorker_unseen different).release_unseen other
  | acknowledge phase => exact { mirrors.release_unseen other with }
  | work published =>
      exact mirrors.publishCallback_unseen (fun own => other (congrArg some own))
  | callbackDropped published =>
      exact mirrors.callback_unseen owned (fun own => other (congrArg some own)) stepped
  | callbackCommitted published found =>
      exact mirrors.callback_unseen owned (fun own => other (congrArg some own)) stepped
  | callbackRolledBack published =>
      exact mirrors.callback_unseen owned (fun own => other (congrArg some own)) stepped

end Mirrors

end EchoProcessing.Orchestrator
