/-
Atomic transactions as serial schedules of their statements.

A transaction of the atomic model is a run of statements in which nothing else
happens between its first statement and its commit or rollback. So every run of the
atomic model is a run of the sessions, with the same rows and the same messages.
-/

import EchoProcessing.Orchestrator.Sessions

namespace EchoProcessing.Orchestrator

open EchoWorkerRepository EchoWorkerService

def Handler.phase : Handler → Sessions.StartPhase
  | .idle => .idle
  | .received message => .received message
  | .orchestrated message geoTransform => .orchestrated message geoTransform
  | .starting message totalWorkers workers => .starting message totalWorkers workers

/-- The sessions between two transactions; what they have done is kept apart. -/
def System.sessions (system : System) (callbacks : ℕ → Sessions.CallbackPhase)
    (reported : List EchoWorkerCallbackMessage) : Sessions.System :=
  { db := system.db
    starts := fun handler => (system.handlers handler).phase
    callbacks := callbacks
    workerMessages := system.workerMessages
    callbackMessages := system.callbackMessages
    mergeMessages := system.mergeMessages
    reported := reported
    acknowledged := system.acknowledged }

/-- No start transaction is open, and there is room for a further callback. -/
def Between (system : System) (image : Sessions.System) : Prop :=
  ∃ callbacks reported bound, image = system.sessions callbacks reported ∧
    ∀ transaction, bound ≤ transaction → callbacks transaction = .idle

namespace Sessions

private theorem sessions_setHandler (system : Orchestrator.System) (handler : ℕ) (phase : Handler)
    (callbacks : ℕ → CallbackPhase) (reported : List EchoWorkerCallbackMessage) :
    (system.setHandler handler phase).sessions callbacks reported =
      (system.sessions callbacks reported).setStart handler phase.phase := by
  have phases : (fun other => ((system.setHandler handler phase).handlers other).phase) =
      Function.update (fun other => (system.handlers other).phase) handler phase.phase := by
    funext other
    by_cases same : other = handler
    · subst same
      simp [Orchestrator.System.setHandler]
    · simp [Orchestrator.System.setHandler, same]
  unfold Orchestrator.System.sessions System.setStart
  rw [phases]
  rfl

@[simp]
theorem starts_setStart (system : System) (handler : ℕ) (phase : StartPhase) :
    (system.setStart handler phase).starts handler = phase :=
  Function.update_self _ _ _

@[simp]
theorem setStart_setStart (system : System) (handler : ℕ) (first second : StartPhase) :
    (system.setStart handler first).setStart handler second =
      system.setStart handler second := by
  simp [System.setStart]

@[simp]
theorem db_setStart (system : System) (handler : ℕ) (phase : StartPhase) :
    (system.setStart handler phase).db = system.db := rfl

@[simp]
theorem callbacks_setCallback (system : System) (transaction : ℕ) (phase : CallbackPhase) :
    (system.setCallback transaction phase).callbacks transaction = phase :=
  Function.update_self _ _ _

@[simp]
theorem setCallback_setCallback (system : System) (transaction : ℕ)
    (first second : CallbackPhase) :
    (system.setCallback transaction first).setCallback transaction second =
      system.setCallback transaction second := by
  simp [System.setCallback]

@[simp]
theorem db_setCallback (system : System) (transaction : ℕ) (phase : CallbackPhase) :
    (system.setCallback transaction phase).db = system.db := rfl

section Start

variable {system : System} {handler : ℕ} {message : EchoStartMessage}

private theorem runs_createOrchestrator {geoTransform : GeoTransform} {next : Database}
    (phase : system.starts handler = .received message)
    (returned : EchoService.createOrchestrator system.db message = .ok (geoTransform, next)) :
    sessions.Runs system [.findOrchestrator handler, .commitOrchestrator handler]
      ({ system with db := next }.setStart handler (.orchestrated message geoTransform)) := by
  obtain ⟨transform, created⟩ := EchoService.createOrchestrator_ok returned
  unfold EchoOrchestratorService.createOrchestrator at created
  have searched : sessions.step system (.findOrchestrator handler) =
      some (system.setStart handler (.searched message geoTransform
        (EchoOrchestratorRepository.findByProcessingId system.db
          message.processingId).isSome)) := by
    simp [sessions, System.step, System.findOrchestrator, phase, transform]
  refine Machine.Runs.cons searched (Machine.Runs.cons ?_ rfl)
  cases found : EchoOrchestratorRepository.findByProcessingId system.db message.processingId with
  | some row =>
      rw [found] at created
      obtain rfl := Except.ok.inj created
      simp [sessions, System.step, System.commitOrchestrator]
  | none =>
      rw [found] at created
      simp [sessions, System.step, System.commitOrchestrator, created, System.setStart]

private theorem runs_createWorkers {strategy : ErrorStrategy} {uuid : ℕ → String} {scan : Scan}
    {geoTransform : GeoTransform} {workers : List EchoWorker} {next : Database}
    (phase : system.starts handler = .orchestrated message geoTransform)
    (returned : EchoService.createWorkers strategy uuid scan system.db message geoTransform =
      .ok (workers, next)) :
    ∃ events, sessions.Runs system events
      ({ system with db := next }.setStart handler
        (.starting message workers.length workers)) := by
  obtain ⟨grid, gridEq, created⟩ := EchoService.createWorkers_ok returned
  have guarded : sessions.step system (.existsWorkers handler) =
      some (system.setStart handler (.guarded message grid
        (existsByProcessingId system.db message.processingId))) := by
    simp [sessions, System.step, System.existsWorkers, phase, gridEq]
  unfold EchoWorkerService.createWorkers at created
  cases present : existsByProcessingId system.db message.processingId with
  | true =>
      rw [present] at created guarded
      obtain ⟨rfl, rfl⟩ := Prod.mk.inj (Except.ok.inj created)
      refine ⟨[.existsWorkers handler, .findWorkers handler scan],
        Machine.Runs.cons guarded (Machine.Runs.cons ?_ rfl)⟩
      simp [sessions, System.step, System.findWorkers]
  | false =>
      rw [present] at created guarded
      cases saved : saveAll system.db
          (newWorkers message.processingId message.imageURL uuid grid) with
      | error failure =>
          simp [saved, bind, Except.bind] at created
      | ok database =>
          cases checked : applyErrorStrategy strategy .afterInitWorkersInDatabase with
          | error failure => simp [saved, checked, bind, Except.bind] at created
          | ok _ =>
              simp only [saved, checked, bind, Except.bind, pure, Except.pure] at created
              obtain ⟨rfl, rfl⟩ := Prod.mk.inj (Except.ok.inj created)
              have pending : sessions.step (system.setStart handler (.guarded message grid false))
                  (.insertWorkers handler strategy uuid) =
                  some (system.setStart handler (.inserted message
                    (newWorkers message.processingId message.imageURL uuid grid))) := by
                simp [sessions, System.step, System.insertWorkers, checked]
              refine ⟨[.existsWorkers handler, .insertWorkers handler strategy uuid,
                .commitWorkers handler], Machine.Runs.cons guarded (Machine.Runs.cons pending
                  (Machine.Runs.cons ?_ rfl))⟩
              simp [sessions, System.step, System.commitWorkers, saved, System.setStart]

variable {strategy : ErrorStrategy} {totalWorkers : ℤ} {worker : EchoWorker}
  {rest : List EchoWorker}

private theorem runs_publishWorker (initial : worker.state = .init)
    (phase : system.starts handler = .starting message totalWorkers (worker :: rest)) :
    sessions.Runs system [.saveWorker handler .none, .publishWorker handler]
      ({ system with
          workerMessages := system.workerMessages ++ [workerMessage worker totalWorkers]
        }.setStart handler (.published message totalWorkers worker rest)) := by
  have saved : sessions.step system (.saveWorker handler .none) =
      some (system.setStart handler (.saved message totalWorkers worker rest)) := by
    simp [sessions, System.step, System.saveWorker, phase, initial, applyErrorStrategy,
      ErrorStrategy.none]
  refine Machine.Runs.cons saved (Machine.Runs.cons ?_ rfl)
  simp [sessions, System.step, System.publishWorker, System.setStart]

private theorem runs_startEchoWorker {next : Database} {published : Option EchoWorkerMessage}
    (phase : system.starts handler = .starting message totalWorkers (worker :: rest))
    (returned : startEchoWorker strategy system.db worker totalWorkers = .ok (next, published)) :
    ∃ events, sessions.Runs system events
      ({ system with
          db := next
          workerMessages := system.workerMessages ++ published.toList
        }.setStart handler (.starting message totalWorkers rest)) := by
  rcases startEchoWorker_ok returned with ⟨leftInit, rfl, rfl⟩ | ⟨initial, rfl, rfl⟩
  · refine ⟨[.saveWorker handler strategy], Machine.Runs.cons ?_ rfl⟩
    simp [sessions, System.step, System.saveWorker, phase, leftInit]
  · refine ⟨[.saveWorker handler .none, .publishWorker handler] ++ [.commitWorker handler],
      (sessions.runs_snoc _ _ _ _).mpr ⟨_, runs_publishWorker initial phase, ?_⟩⟩
    simp [sessions, System.step, System.commitWorker, System.setStart]

theorem runs_startEchoWorker_rolledBack {next : Database} {published : Option EchoWorkerMessage}
    (phase : system.starts handler = .starting message totalWorkers (worker :: rest))
    (returned : startEchoWorker strategy system.db worker totalWorkers = .ok (next, published)) :
    ∃ events, sessions.Runs system events
      ({ system with
          workerMessages := system.workerMessages ++ published.toList
        }.setStart handler .idle) := by
  rcases startEchoWorker_ok returned with ⟨_, rfl, rfl⟩ | ⟨initial, rfl, rfl⟩
  · refine ⟨[.rollBackStart handler], Machine.Runs.cons ?_ rfl⟩
    simp [sessions, System.step]
  · refine ⟨[.saveWorker handler .none, .publishWorker handler] ++ [.rollBackStart handler],
      (sessions.runs_snoc _ _ _ _).mpr ⟨_, runs_publishWorker initial phase, ?_⟩⟩
    simp [sessions, System.step, System.setStart]

end Start

section Callback

variable {system : System} {transaction : ℕ} {message : EchoWorkerCallbackMessage} {scan : Scan}

private theorem runs_query {row : EchoWorker} (idle : system.callbacks transaction = .idle)
    (published : message ∈ system.callbackMessages)
    (found : findByWorkerId system.db message.workerId = some row) :
    sessions.Runs system
      [.deliver transaction message, .read transaction, .write transaction, .query transaction]
      (system.setCallback transaction
        (.queried message row (allDone (save system.db (finished row message.imageURL))
          message.processingId))) := by
  have delivered : sessions.step system (.deliver transaction message) =
      some (system.setCallback transaction (.delivered message)) := by
    simp [sessions, System.step, System.deliver, idle, published]
  have read : sessions.step (system.setCallback transaction (.delivered message))
      (.read transaction) = some (system.setCallback transaction (.loaded message row)) := by
    simp [sessions, System.step, System.read, found]
  have written : sessions.step (system.setCallback transaction (.loaded message row))
      (.write transaction) = some (system.setCallback transaction (.flushed message row)) := by
    simp [sessions, System.step, System.write]
  refine Machine.Runs.cons delivered (Machine.Runs.cons read (Machine.Runs.cons written
    (Machine.Runs.cons ?_ rfl)))
  simp [sessions, System.step, System.query, System.view]

theorem runs_decide {row : EchoWorker} {next : Database} {merge : Option EchoMergeMessage}
    (idle : system.callbacks transaction = .idle)
    (published : message ∈ system.callbackMessages)
    (found : findByWorkerId system.db message.workerId = some row)
    (returned : callbackEchoWorker scan system.db message.processingId message.workerId
      message.imageURL = .ok (next, merge)) :
    ∃ events phase, sessions.Runs system events
        ({ system with mergeMessages := system.mergeMessages ++ merge.toList }.setCallback
          transaction phase) ∧
      (phase = .queried message row false ∨ phase = .published message row) ∧
      next = save system.db (finished row message.imageURL) := by
  have asked := runs_query idle published found
  rcases callbackEchoWorker_ok returned with ⟨absent, _⟩ | ⟨own, foundOwn, rfl, decision⟩
  · rw [found] at absent
    cases absent
  · obtain rfl : row = own := Option.some.inj (found.symm.trans foundOwn)
    rcases decision with ⟨incomplete, rfl⟩ | ⟨complete, merged, rfl, returnedMerge⟩
    · rw [incomplete] at asked
      exact ⟨_, _, by simpa using asked, Or.inl rfl, rfl⟩
    · rw [complete] at asked
      refine ⟨_, _, (sessions.runs_snoc _ _ _ (.publish transaction scan)).mpr
        ⟨_, asked, ?_⟩, Or.inr rfl, rfl⟩
      simp [sessions, System.step, System.publish, System.view, returnedMerge,
        System.setCallback]

private theorem runs_callback {next : Database} {merge : Option EchoMergeMessage}
    (idle : system.callbacks transaction = .idle) (published : message ∈ system.callbackMessages)
    (returned : callbackEchoWorker scan system.db message.processingId message.workerId
      message.imageURL = .ok (next, merge)) :
    ∃ events reported, sessions.Runs system events
      ({ system with
          db := next
          mergeMessages := system.mergeMessages ++ merge.toList
          reported := reported
        }.setCallback transaction (.committed message)) := by
  cases found : findByWorkerId system.db message.workerId with
  | none =>
      rcases callbackEchoWorker_ok returned with ⟨_, rfl, rfl⟩ | ⟨own, foundOwn, _⟩
      · have delivered : sessions.step system (.deliver transaction message) =
            some (system.setCallback transaction (.delivered message)) := by
          simp [sessions, System.step, System.deliver, idle, published]
        refine ⟨[.deliver transaction message, .read transaction], system.reported,
          Machine.Runs.cons delivered (Machine.Runs.cons ?_ rfl)⟩
        simp [sessions, System.step, System.read, found, System.setCallback]
      · rw [found] at foundOwn
        cases foundOwn
  | some row =>
      obtain ⟨events, phase, decided, which, rfl⟩ :=
        runs_decide idle published found returned
      refine ⟨events ++ [.commit transaction], system.reported ++ [message],
        (sessions.runs_snoc _ _ _ _).mpr ⟨_, decided, ?_⟩⟩
      rcases which with rfl | rfl
      · simp [sessions, System.step, System.commit, System.commitReport, System.view,
          System.setCallback]
      · simp [sessions, System.step, System.commit, System.commitReport, System.view,
          System.setCallback]

private theorem runs_callback_rolledBack {next : Database} {merge : Option EchoMergeMessage}
    (idle : system.callbacks transaction = .idle) (published : message ∈ system.callbackMessages)
    (returned : callbackEchoWorker scan system.db message.processingId message.workerId
      message.imageURL = .ok (next, merge)) :
    ∃ events, sessions.Runs system events
      ({ system with mergeMessages := system.mergeMessages ++ merge.toList }.setCallback
        transaction .idle) := by
  cases found : findByWorkerId system.db message.workerId with
  | none =>
      rcases callbackEchoWorker_ok returned with ⟨_, rfl, rfl⟩ | ⟨own, foundOwn, _⟩
      · refine ⟨[.rollBackCallback transaction], Machine.Runs.cons ?_ rfl⟩
        simp [sessions, System.step]
      · rw [found] at foundOwn
        cases foundOwn
  | some row =>
      obtain ⟨events, phase, decided, _, _⟩ := runs_decide idle published found returned
      refine ⟨events ++ [.rollBackCallback transaction],
        (sessions.runs_snoc _ _ _ _).mpr ⟨_, decided, ?_⟩⟩
      simp [sessions, System.step, System.setCallback]

end Callback

theorem between_of_start {system next : Orchestrator.System} {handler : ℕ} {phase : Handler}
    {callbacks : ℕ → CallbackPhase} {reported : List EchoWorkerCallbackMessage} {bound : ℕ}
    (free : ∀ transaction, bound ≤ transaction → callbacks transaction = .idle)
    (reached : ∃ events, sessions.Runs (system.sessions callbacks reported) events
      ((next.sessions callbacks reported).setStart handler phase.phase)) :
    ∃ events image, sessions.Runs (system.sessions callbacks reported) events image ∧
      Between (next.setHandler handler phase) image := by
  obtain ⟨events, reached⟩ := reached
  exact ⟨events, _, reached, callbacks, reported, bound,
    (sessions_setHandler next handler phase callbacks reported).symm, free⟩

private theorem between_of_rollBack {system : Orchestrator.System}
    {callbacks : ℕ → CallbackPhase} {reported : List EchoWorkerCallbackMessage} {bound : ℕ}
    (handler : ℕ) (free : ∀ transaction, bound ≤ transaction → callbacks transaction = .idle) :
    ∃ events image, sessions.Runs (system.sessions callbacks reported) events image ∧
      Between (system.setHandler handler .idle) image :=
  between_of_start free ⟨[.rollBackStart handler], Machine.Runs.cons rfl rfl⟩

theorem between_of_callback {system next : Orchestrator.System}
    {callbacks : ℕ → CallbackPhase} {reported later : List EchoWorkerCallbackMessage} {bound : ℕ}
    {phase : CallbackPhase} {events : List Event}
    (free : ∀ transaction, bound ≤ transaction → callbacks transaction = .idle)
    (reached : sessions.Runs (system.sessions callbacks reported) events
      ((next.sessions callbacks later).setCallback bound phase)) :
    ∃ events image, sessions.Runs (system.sessions callbacks reported) events image ∧
      Between next image := by
  refine ⟨events, _, reached, Function.update callbacks bound phase, later, bound + 1, rfl, ?_⟩
  intro transaction above
  rw [Function.update_of_ne (by omega)]
  exact free transaction (by omega)

private theorem step_matched {system next : Orchestrator.System} {event : Orchestrator.Event}
    {image : System} (between : Between system image)
    (stepped : delivery.step system event = some next) :
    ∃ events nextImage, sessions.Runs image events nextImage ∧ Between next nextImage := by
  obtain ⟨callbacks, reported, bound, rfl, free⟩ := between
  have phaseEq : ∀ {handler current}, system.handlers handler = current →
      (system.sessions callbacks reported).starts handler = current.phase :=
    fun same => congrArg Handler.phase same
  have idle : (system.sessions callbacks reported).callbacks bound = .idle :=
    free bound (le_refl bound)
  cases step_performs stepped with
  | @receive handler message waiting =>
      refine between_of_start free ⟨[.receive handler message], Machine.Runs.cons ?_ rfl⟩
      simp [sessions, System.step, phaseEq waiting, Handler.phase]
  | orchestratorRefused phase returned => exact between_of_rollBack _ free
  | orchestratorCreated phase returned =>
      exact between_of_start free ⟨_, runs_createOrchestrator (phaseEq phase) returned⟩
  | workersRefused phase returned => exact between_of_rollBack _ free
  | workersCreated phase returned =>
      exact between_of_start free (runs_createWorkers (phaseEq phase) returned)
  | workerRefused phase returned => exact between_of_rollBack _ free
  | workerStarted phase returned =>
      exact between_of_start free (runs_startEchoWorker (phaseEq phase) returned)
  | workerRolledBack phase returned =>
      exact between_of_start free (runs_startEchoWorker_rolledBack (phaseEq phase) returned)
  | @acknowledge handler message totalWorkers phase =>
      refine between_of_start free ⟨[.acknowledge handler], Machine.Runs.cons ?_ rfl⟩
      simp [sessions, System.step, System.acknowledge, phaseEq phase, Handler.phase]
      rfl
  | stop => exact between_of_rollBack _ free
  | work published =>
      exact ⟨[.work _], _, Machine.Runs.cons (if_pos published) rfl, callbacks, reported, bound,
        rfl, free⟩
  | callbackRefused published returned =>
      exact ⟨[], _, rfl, callbacks, reported, bound, rfl, free⟩
  | callbackReturned published returned =>
      obtain ⟨events, later, reached⟩ := runs_callback idle published returned
      exact between_of_callback free reached
  | callbackRolledBack published returned =>
      obtain ⟨events, reached⟩ := runs_callback_rolledBack idle published returned
      exact between_of_callback free reached

/-- Every run of the atomic model is a run of statements with the same rows and messages. -/
theorem atomic_run_is_serial {db : Database} {events : List Orchestrator.Event}
    {system : Orchestrator.System}
    (reached : delivery.Runs (Orchestrator.System.initial db) events system) :
    ∃ statements image, sessions.Runs (System.initial db) statements image ∧
      image.db = system.db ∧ image.workerMessages = system.workerMessages ∧
      image.callbackMessages = system.callbackMessages ∧
      image.mergeMessages = system.mergeMessages ∧ image.acknowledged = system.acknowledged := by
  have initially : Between (Orchestrator.System.initial db) (System.initial db) :=
    ⟨fun _ => .idle, [], 0, rfl, fun _ _ => rfl⟩
  obtain ⟨statements, _, serial, callbacks, reported, _, rfl, _⟩ :=
    reached.simulated (fun _ _ _ _ between stepped => step_matched between stepped) initially
  exact ⟨statements, _, serial, rfl, rfl, rfl, rfl, rfl⟩

theorem atomic_run_is_serial_two_tiles :
    ∃ system, delivery.Runs (Orchestrator.System.initial Database.empty)
        (Orchestrator.Sample.untilLastReport ++ [Orchestrator.Sample.rightDelivered]) system ∧
      system.mergeMessages.length = 1 ∧
      ∃ statements image, sessions.Runs (System.initial Database.empty) statements image ∧
        image.db = system.db ∧ image.mergeMessages = system.mergeMessages := by
  have merged : (delivery.run Orchestrator.Sample.lastReport
      [Orchestrator.Sample.rightDelivered]).map (fun system => system.mergeMessages.length) =
      some 1 := by
    decide +kernel
  obtain ⟨system, onward, single⟩ := Option.map_eq_some_iff.mp merged
  have reached := (delivery.runs_append _ _ _ _).mpr
    ⟨_, Orchestrator.Sample.runs_lastReport, onward⟩
  obtain ⟨statements, image, serial, db, _, _, merges, _⟩ := atomic_run_is_serial reached
  exact ⟨system, reached, single, statements, image, serial, db, merges⟩

end Sessions

end EchoProcessing.Orchestrator
