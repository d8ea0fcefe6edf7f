/-
A finished worker and the write of a stale copy.

`startEchoWorker` publishes before its write is committed, and that write overwrites
all columns. A callback that commits in between is lost: the row goes back to
PROCESSING and its tile is forgotten. Nothing else takes a finished row back.
-/

import EchoProcessing.Orchestrator.Coherence

namespace EchoProcessing.Orchestrator.Sessions

open EchoWorkerRepository EchoWorkerService

/-- Every row with a committed callback is done and carries the reported tile. -/
def Kept (system : System) : Prop :=
  ∀ callback ∈ system.reported, ∃ row,
    findByWorkerId system.db callback.workerId = some row ∧ row.state = .done ∧
      row.tileURL = some callback.imageURL

/-- The copy whose message is out while its write is still pending. -/
def StartPhase.unwritten? : StartPhase → Option EchoWorker
  | .published _ _ worker _ => some worker
  | _ => none

def System.overwriting? (system : System) : Event → Option EchoWorker
  | .commitWorker handler => (system.starts handler).unwritten?
  | _ => none

/-- No `startEchoWorker` commits its copy of a worker that was reported before. -/
def CommitsBeforeReport (system : System) (event : Event) : Prop :=
  ∀ worker ∈ system.overwriting? event, ∀ callback ∈ system.reported,
    callback.workerId ≠ worker.workerId

instance (system : System) (event : Event) : Decidable (CommitsBeforeReport system event) :=
  inferInstanceAs (Decidable (∀ worker ∈ system.overwriting? event, _))

/-- Every row that has left INIT was announced to the workers. -/
structure Announced (system : System) : Prop where
  pending : ∀ handler worker, (system.starts handler).unwritten? = some worker →
    ∃ source ∈ system.workerMessages, source.workerId = worker.workerId ∧
      source.processingId = worker.processingId
  rows : ∀ row ∈ system.db.workers.rows, row.state ≠ .init →
    ∃ source ∈ system.workerMessages, source.workerId = row.workerId ∧
      source.processingId = row.processingId

theorem Announced.setStart {system : System} (announced : Announced system) (handler : ℕ)
    {phase : StartPhase}
    (pending : ∀ worker, phase.unwritten? = some worker →
      ∃ source ∈ system.workerMessages, source.workerId = worker.workerId ∧
        source.processingId = worker.processingId) :
    Announced (system.setStart handler phase) :=
  { announced with
    pending := (Function.forall_update_iff system.starts
      (fun _ current => ∀ worker, current.unwritten? = some worker →
        ∃ source ∈ system.workerMessages, source.workerId = worker.workerId ∧
          source.processingId = worker.processingId)).mpr
      ⟨pending, fun other _ => announced.pending other⟩ }

theorem Announced.move {system : System} (announced : Announced system) (handler : ℕ)
    {phase : StartPhase} (none : phase.unwritten? = none) :
    Announced (system.setStart handler phase) := by
  apply announced.setStart
  intro worker current
  rw [none] at current
  cases current

theorem Announced.setDatabase {system : System} (announced : Announced system)
    {next : Database}
    (rows : ∀ row ∈ next.workers.rows, row ∈ system.db.workers.rows ∨ row.state = .init ∨
      ∃ source ∈ system.workerMessages, source.workerId = row.workerId ∧
        source.processingId = row.processingId) :
    Announced { system with db := next } :=
  { announced with
    rows := by
      intro row member leftInit
      rcases rows row member with old | initial | announcedRow
      · exact announced.rows row old leftInit
      · exact absurd initial leftInit
      · exact announcedRow }

theorem Announced.publishWorker {system : System} (announced : Announced system)
    (worker : EchoWorker) (totalWorkers : ℤ) :
    Announced { system with
      workerMessages := system.workerMessages ++ [workerMessage worker totalWorkers] } :=
  { pending := by
      intro handler other current
      obtain ⟨source, member, facts⟩ := announced.pending handler other current
      exact ⟨source, List.mem_append_left _ member, facts⟩
    rows := by
      intro row member leftInit
      obtain ⟨source, sourceMember, facts⟩ := announced.rows row member leftInit
      exact ⟨source, List.mem_append_left _ sourceMember, facts⟩ }

theorem Transition.announced {system next : System} {event : Event}
    (transition : Transition system event next) (coherent : Coherent system)
    (announced : Announced system) : Announced next := by
  cases transition with
  | receive idle => exact announced.move _ rfl
  | giveUp handler => exact announced.move _ rfl
  | searched phase transform present => exact announced.move _ rfl
  | orchestratorFound phase => exact announced.move _ rfl
  | orchestratorCommitted phase sameWorkers =>
      have stored := announced.setDatabase (fun row member => Or.inl (sameWorkers ▸ member))
      exact stored.move _ rfl
  | guarded phase gridEq => exact announced.move _ rfl
  | workersRead phase => exact announced.move _ rfl
  | inserted phase => exact announced.move _ rfl
  | @workersCommitted handler message database workers phase rows =>
      obtain ⟨uuid, grid, _, workersEq⟩ := coherent.open_start phase
      have stored : Announced { system with db := database } := by
        apply announced.setDatabase
        intro row member
        rcases List.mem_append.mp (rows ▸ member) with old | new
        · exact Or.inl old
        · exact Or.inr (Or.inl (mem_newWorkers (workersEq ▸ new)).2)
      exact stored.move _ rfl
  | skipped phase => exact announced.move _ rfl
  | saved phase => exact announced.move _ rfl
  | @workerPublished handler message totalWorkers worker rest phase =>
      apply (announced.publishWorker worker totalWorkers).setStart
      intro other same
      cases same
      exact ⟨workerMessage worker totalWorkers,
        List.mem_append_right _ (List.mem_singleton_self _), rfl, rfl⟩
  | @workerCommitted handler message totalWorkers worker rest phase =>
      have copies : system.db.Copies (started worker) :=
        (coherent.open_start phase).1.of_assignment_eq rfl
      have source := announced.pending handler worker (by rw [phase]; rfl)
      have stored : Announced { system with db := save system.db (started worker) } := by
        apply announced.setDatabase
        intro row member
        rcases (mem_save_iff copies row).mp member with ⟨old, _⟩ | rfl
        · exact Or.inl old
        · exact Or.inr (Or.inr source)
      exact stored.move _ rfl
  | @acknowledged handler message totalWorkers phase =>
      have logged : Announced { system with
          acknowledged := system.acknowledged ++ [message] } := { announced with }
      exact logged.move _ rfl
  | work published => exact { announced with }
  | delivered idle published => exact { announced with }
  | missing phase absent => exact { announced with }
  | loaded phase found => exact { announced with }
  | flushed phase => exact { announced with }
  | queried phase => exact { announced with }
  | mergePublished phase returned => exact { announced with }
  | @reportCommitted transaction message row phase =>
      obtain ⟨sent, copies, sameWorker⟩ := coherent.committable phase
      have stored : Announced { system with db := system.view message row } := by
        apply announced.setDatabase
        intro other member
        rcases (mem_save_iff copies other).mp member with ⟨old, _⟩ | rfl
        · exact Or.inl old
        · exact Or.inr (Or.inr (coherent.source_of_callback sent copies sameWorker).1)
      exact { stored with }
  | dropped cause => exact { announced with }

private theorem announced_of_runs {events : List Event} {system : System}
    (reached : sessions.Runs (System.initial Database.empty) events system) :
    Announced system := by
  have preserved : ∀ state event next, Coherent state ∧ Announced state →
      sessions.step state event = some next → Coherent next ∧ Announced next := by
    intro state event next holds stepped
    have transition := step_transition stepped
    exact ⟨transition.coherent holds.1, transition.announced holds.1 holds.2⟩
  have initially : Announced (System.initial Database.empty) :=
    { pending := fun _ _ current => by cases current
      rows := fun _ member => by cases member }
  exact (reached.invariant preserved ⟨coherent_initial Database.empty, initially⟩).2

theorem Kept.setDatabase {system : System} (kept : Kept system) {next : Database}
    (rows : ∀ callback ∈ system.reported,
      findByWorkerId next callback.workerId = findByWorkerId system.db callback.workerId) :
    Kept { system with db := next } := by
  intro callback member
  change ∃ row, findByWorkerId next callback.workerId = some row ∧ _
  rw [rows callback member]
  exact kept callback member

theorem Kept.insert {system : System} (kept : Kept system) {next : Database}
    {workers : List EchoWorker} (rows : next.workers.rows = system.db.workers.rows ++ workers) :
    Kept { system with db := next } := by
  intro callback member
  obtain ⟨row, found, facts⟩ := kept callback member
  obtain ⟨rowMember, sameWorker⟩ := (findByWorkerId_eq_some_iff _ _ _).mp found
  exact ⟨row, (findByWorkerId_eq_some_iff _ _ _).mpr
    ⟨rows ▸ List.mem_append_left _ rowMember, sameWorker⟩, facts⟩

/-- Two callbacks of one worker report the same tile, so the later one changes nothing. -/
theorem Kept.report {system : System} (coherent : Coherent system) (kept : Kept system)
    {message : EchoWorkerCallbackMessage} {row : EchoWorker}
    (sent : message ∈ system.callbackMessages)
    (copies : system.db.Copies (finished row message.imageURL))
    (sameWorker : row.workerId = message.workerId) :
    Kept { system with
      db := system.view message row
      reported := system.reported ++ [message] } := by
  have tile := (coherent.source_of_callback sent copies sameWorker).2.2
  have own : ∀ callback : EchoWorkerCallbackMessage, callback.workerId = row.workerId →
      callback.imageURL = message.imageURL → ∃ current,
        findByWorkerId (system.view message row) callback.workerId = some current ∧
          current.state = .done ∧ current.tileURL = some callback.imageURL := by
    intro callback sameRow sameTile
    refine ⟨finished row message.imageURL, ?_, rfl, congrArg some sameTile.symm⟩
    exact (findByWorkerId_save copies callback.workerId).trans (if_pos sameRow)
  intro callback member
  rcases List.mem_append.mp member with earlier | added
  · by_cases sameRow : callback.workerId = row.workerId
    · have earlierTile := (coherent.source_of_callback (coherent.reported callback earlier)
        copies sameRow.symm).2.2
      exact own callback sameRow (earlierTile.trans tile.symm)
    · obtain ⟨current, found, facts⟩ := kept callback earlier
      exact ⟨current, ((findByWorkerId_save copies callback.workerId).trans
        (if_neg sameRow)).trans found, facts⟩
  · rw [List.mem_singleton.mp added]
    exact own message sameWorker.symm rfl

theorem Transition.kept {system next : System} {event : Event}
    (transition : Transition system event next) (coherent : Coherent system)
    (kept : Kept system) (before : CommitsBeforeReport system event) : Kept next := by
  cases transition with
  | @orchestratorCommitted handler message geoTransform database phase sameWorkers =>
      have sameRow : ∀ callback ∈ system.reported, findByWorkerId database callback.workerId =
          findByWorkerId system.db callback.workerId := by
        intro callback member
        unfold findByWorkerId
        rw [sameWorkers]
      exact kept.setDatabase sameRow
  | workersCommitted phase rows => exact kept.insert rows
  | @workerCommitted handler message totalWorkers worker rest phase =>
      have copies : system.db.Copies (started worker) :=
        (coherent.open_start phase).1.of_assignment_eq rfl
      have sameRow : ∀ callback ∈ system.reported,
          findByWorkerId (save system.db (started worker)) callback.workerId =
            findByWorkerId system.db callback.workerId := by
        intro callback member
        have overwriting : worker ∈ system.overwriting? (.commitWorker handler) := by
          change (system.starts handler).unwritten? = some worker
          rw [phase]
          rfl
        have other := before worker overwriting callback member
        exact (findByWorkerId_save copies callback.workerId).trans (if_neg other)
      exact kept.setDatabase sameRow
  | reportCommitted phase =>
      obtain ⟨sent, copies, sameWorker⟩ := coherent.committable phase
      exact kept.report coherent sent copies sameWorker
  | receive idle => exact kept
  | giveUp handler => exact kept
  | searched phase transform present => exact kept
  | orchestratorFound phase => exact kept
  | guarded phase gridEq => exact kept
  | workersRead phase => exact kept
  | inserted phase => exact kept
  | skipped phase => exact kept
  | saved phase => exact kept
  | workerPublished phase => exact kept
  | acknowledged phase => exact kept
  | work published => exact kept
  | delivered idle published => exact kept
  | missing phase absent => exact kept
  | loaded phase found => exact kept
  | flushed phase => exact kept
  | queried phase => exact kept
  | mergePublished phase returned => exact kept
  | dropped cause => exact kept

theorem commitsBeforeReport_of_kept {system next : System} {event : Event}
    (coherent : Coherent system) (stepped : sessions.step system event = some next)
    (kept : Kept next) : CommitsBeforeReport system event := by
  intro worker overwriting callback member sameWorker
  cases event with
  | commitWorker handler =>
      change system.commitWorker handler = some next at stepped
      unfold System.commitWorker at stepped
      split at stepped
      · rename_i message totalWorkers copy rest phase
        cases stepped
        change (system.starts handler).unwritten? = some worker at overwriting
        rw [phase] at overwriting
        obtain rfl : copy = worker := Option.some.inj overwriting
        have copies : system.db.Copies (started copy) :=
          (coherent.open_start phase).1.of_assignment_eq rfl
        obtain ⟨row, found, isDone, _⟩ := kept callback member
        have stale : findByWorkerId (save system.db (started copy)) callback.workerId =
            some (started copy) :=
          (findByWorkerId_save copies callback.workerId).trans (if_pos sameWorker)
        have same : started copy = row := Option.some.inj (stale.symm.trans found)
        rw [← same] at isDone
        cases isDone
      · cases stepped
  | _ => cases overwriting

/-- A row in PROCESSING was announced; once the announced worker has reported, it is not. -/
theorem Kept.ne_processing {system : System} (kept : Kept system) (announced : Announced system)
    {processingId : String}
    (consumed : ∀ source ∈ system.workerMessages, source.processingId = processingId →
      ∃ callback ∈ system.reported, callback.workerId = source.workerId)
    {row : EchoWorker} (member : row ∈ ofProcessing system.db processingId) :
    row.state ≠ .processing := by
  intro isProcessing
  obtain ⟨rowMember, rowProcessing⟩ := (mem_ofProcessing _ _ _).mp member
  obtain ⟨source, sourceMember, sameWorker, sameProcessing⟩ :=
    announced.rows row rowMember (by rw [isProcessing]; decide)
  obtain ⟨callback, reported, callbackWorker⟩ :=
    consumed source sourceMember (sameProcessing.trans rowProcessing)
  obtain ⟨current, found, isDone, _⟩ := kept callback reported
  have foundRow : findByWorkerId system.db callback.workerId = some row :=
    (findByWorkerId_eq_some_iff _ _ _).mpr
      ⟨rowMember, (callbackWorker.trans sameWorker).symm⟩
  obtain rfl : current = row := Option.some.inj (found.symm.trans foundRow)
  rw [isProcessing] at isDone
  cases isDone

/-- The committed callbacks stay in force exactly in the runs in which no stale copy of a
reported worker is committed; when all published workers have reported in such a run, no
row is left in PROCESSING. -/
theorem finished_workers_stay_iff {events : List Event} {system : System}
    (reached : sessions.Runs (System.initial Database.empty) events system) :
    (sessions.EveryState Kept (System.initial Database.empty) events ↔
      sessions.EveryStep CommitsBeforeReport (System.initial Database.empty) events) ∧
    (sessions.EveryStep CommitsBeforeReport (System.initial Database.empty) events →
      ∀ processingId,
        (∀ source ∈ system.workerMessages, source.processingId = processingId →
          ∃ callback ∈ system.reported, callback.workerId = source.workerId) →
        ∀ row ∈ ofProcessing system.db processingId, row.state ≠ .processing) := by
  have stable : ∀ state event next, Coherent state → True →
      sessions.step state event = some next → Coherent next :=
    fun _ _ _ coherent _ stepped => (step_transition stepped).coherent coherent
  have initially : Kept (System.initial Database.empty) := by
    intro callback member
    cases member
  have keptIff : sessions.EveryState Kept (System.initial Database.empty) events ↔
      sessions.EveryStep CommitsBeforeReport (System.initial Database.empty) events :=
    Machine.Runs.everyState_iff_everyStep stable
      (fun _ _ _ coherent kept before stepped =>
        (step_transition stepped).kept coherent kept before)
      (fun _ _ _ coherent _ stepped kept => commitsBeforeReport_of_kept coherent stepped kept)
      (coherent_initial Database.empty) initially (sessions.everyStep_trivial _ events) reached
  refine ⟨keptIff, ?_⟩
  intro every processingId consumed row member
  have kept : Kept system := keptIff.mpr every events [] system (by simp) reached
  exact kept.ne_processing (announced_of_runs reached) consumed member

namespace Sample

open Orchestrator.Sample (startMessage workerMessage)

def untilPublished : List Event :=
  [.receive 0 startMessage, .findOrchestrator 0, .commitOrchestrator 0, .existsWorkers 0,
    .insertWorkers 0 .none (fun _ => "w"), .commitWorkers 0, .saveWorker 0 .none,
    .publishWorker 0]

def report : List Event :=
  [.deliver 0 workerMessage.callback, .read 0, .write 0, .query 0, .publish 0 .insertionOrder,
    .commit 0]

/-- The worker is faster than the commit of the transaction that started it. -/
def overtaken : List Event :=
  untilPublished ++ .work workerMessage :: report ++ [.commitWorker 0]

def inOrder : List Event :=
  untilPublished ++ .commitWorker 0 :: .work workerMessage :: report

end Sample

theorem finished_workers_stay_iff_in_order :
    sessions.EveryState Kept (System.initial Database.empty) Sample.inOrder := by
  have enabled : (sessions.run (System.initial Database.empty) Sample.inOrder).isSome = true := by
    decide +kernel
  exact (finished_workers_stay_iff (sessions.runs_get enabled)).1.mpr (by decide +kernel)

/-- The callback has committed, and yet the row ends in PROCESSING without its tile. -/
theorem overtaken_start_loses_callback :
    ∃ system, sessions.Runs (System.initial Database.empty) Sample.overtaken system ∧
      system.reported = [Orchestrator.Sample.workerMessage.callback] ∧
      system.db.workers.rows.map (fun row => (row.workerId, row.state, row.tileURL)) =
        [("w", .processing, none)] ∧
      ¬Kept system := by
  have observed : (sessions.run (System.initial Database.empty) Sample.overtaken).map
      (fun system => (system.reported,
        system.db.workers.rows.map (fun row => (row.workerId, row.state, row.tileURL)))) =
      some ([Orchestrator.Sample.workerMessage.callback], [("w", .processing, none)]) := by
    decide +kernel
  obtain ⟨system, reached, values⟩ := Option.map_eq_some_iff.mp observed
  obtain ⟨reported, rows⟩ := Prod.mk.inj values
  refine ⟨system, reached, reported, rows, ?_⟩
  intro kept
  obtain ⟨row, found, isDone, _⟩ := kept Orchestrator.Sample.workerMessage.callback
    (reported ▸ List.mem_singleton_self _)
  have listed : (row.workerId, row.state, row.tileURL) ∈
      system.db.workers.rows.map (fun other => (other.workerId, other.state, other.tileURL)) :=
    List.mem_map_of_mem ((findByWorkerId_eq_some_iff _ _ _).mp found).1
  rw [rows, List.mem_singleton, isDone, Prod.mk.injEq, Prod.mk.injEq] at listed
  cases listed.2.1

end EchoProcessing.Orchestrator.Sessions
