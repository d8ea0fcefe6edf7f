/-
Overlapping deliveries of one start message.

`createWorkers` tests for rows and inserts them later, and no index forbids a second
set: worker ids are fresh in each handler. One set of rows is kept exactly in the runs
in which the guard would still give the same answer when an insertion commits.
-/

import EchoProcessing.Orchestrator.Coherence

namespace EchoProcessing.Orchestrator.Sessions

open EchoWorkerRepository EchoWorkerService

def StartPhase.message? : StartPhase → Option EchoStartMessage
  | .idle => none
  | .received message => some message
  | .searched message _ _ => some message
  | .orchestrated message _ => some message
  | .guarded message _ _ => some message
  | .inserted message _ => some message
  | .starting message _ _ => some message
  | .saved message _ _ _ => some message
  | .published message _ _ _ => some message

/-- The handler of the message is past `createWorkers`. -/
def StartPhase.Created (message : EchoStartMessage) : StartPhase → Prop
  | .starting own _ _ => own = message
  | .saved own _ _ _ => own = message
  | .published own _ _ _ => own = message
  | _ => False

/-- The rows are those of the grid, or there are none and no handler relies on them. -/
def OneSet (message : EchoStartMessage) (system : System) : Prop :=
  MatchesGrid message system.db ∨
    (ofProcessing system.db message.processingId = [] ∧ message ∉ system.acknowledged ∧
      ∀ handler, ¬(system.starts handler).Created message)

/-- All start messages of the processing are deliveries of one message. -/
def OneMessage (message : EchoStartMessage) (_ : System) : Event → Prop
  | .receive _ received => received.processingId = message.processingId → received = message
  | _ => True

def StartPhase.inserting? : StartPhase → Option EchoStartMessage
  | .inserted message _ => some message
  | _ => none

def System.inserting? (system : System) : Event → Option EchoStartMessage
  | .commitWorkers handler => (system.starts handler).inserting?
  | _ => none

/-- Where an insertion of the processing commits, its guard would still find no rows. -/
def GuardStillHolds (processingId : String) (system : System) (event : Event) : Prop :=
  ∀ message ∈ system.inserting? event, message.processingId = processingId →
    existsByProcessingId system.db processingId = false

instance (processingId : String) (system : System) (event : Event) :
    Decidable (GuardStillHolds processingId system event) :=
  inferInstanceAs (Decidable (∀ message ∈ system.inserting? event, _))

structure Guarded (message : EchoStartMessage) (system : System) : Prop where
  coherent : Coherent system
  sameMessage : ∀ handler received, (system.starts handler).message? = some received →
    received.processingId = message.processingId → received = message
  present : ∀ handler received grid, system.starts handler = .guarded received grid true →
    ofProcessing system.db received.processingId ≠ []

private theorem Transition.rows_stay {system next : System} {event : Event}
    (transition : Transition system event next) (coherent : Coherent system)
    {processingId : String} (present : ofProcessing system.db processingId ≠ []) :
    ofProcessing next.db processingId ≠ [] := by
  cases transition with
  | @orchestratorCommitted handler message geoTransform database phase sameWorkers =>
      change ofProcessing database processingId ≠ []
      rw [ofProcessing_of_workers_eq sameWorkers processingId]
      exact present
  | workersCommitted phase rows => exact ofProcessing_append_ne_nil rows present
  | @workerCommitted handler message totalWorkers worker rest phase =>
      have copies : system.db.Copies (started worker) :=
        (coherent.open_start phase).1.of_assignment_eq rfl
      exact fun empty => present ((ofProcessing_save_eq_nil_iff copies processingId).mp empty)
  | reportCommitted phase =>
      have copies := (coherent.committable phase).2.1
      exact fun empty => present ((ofProcessing_save_eq_nil_iff copies processingId).mp empty)
  | _ => exact present

theorem Transition.message_of_next {system next : System} {event : Event}
    (transition : Transition system event next) {handler : ℕ} {message : EchoStartMessage}
    (current : (next.starts handler).message? = some message) :
    (system.starts handler).message? = some message ∨ event = .receive handler message := by
  have moved : ∀ {own : ℕ} {before later : StartPhase}, system.starts own = before →
      (Function.update system.starts own later handler).message? = some message →
      later.message? = before.message? → (system.starts handler).message? = some message := by
    intro own before later phase after carried
    by_cases same : handler = own
    · rw [same, Function.update_self, carried] at after
      rw [same, phase]
      exact after
    · rw [Function.update_of_ne same] at after
      exact after
  have dropped : ∀ {own : ℕ},
      (Function.update system.starts own .idle handler).message? = some message →
      (system.starts handler).message? = some message := by
    intro own after
    by_cases same : handler = own
    · rw [same, Function.update_self] at after
      cases after
    · rw [Function.update_of_ne same] at after
      exact after
  cases transition with
  | @receive own received idle =>
      change (Function.update system.starts own (.received received) handler).message? = _
        at current
      by_cases same : handler = own
      · rw [same, Function.update_self] at current
        obtain rfl : received = message := Option.some.inj current
        exact Or.inr (by rw [same])
      · rw [Function.update_of_ne same] at current
        exact Or.inl current
  | giveUp own => exact Or.inl (dropped current)
  | acknowledged phase => exact Or.inl (dropped current)
  | searched phase transform present => exact Or.inl (moved phase current rfl)
  | orchestratorFound phase => exact Or.inl (moved phase current rfl)
  | orchestratorCommitted phase sameWorkers => exact Or.inl (moved phase current rfl)
  | guarded phase gridEq => exact Or.inl (moved phase current rfl)
  | workersRead phase => exact Or.inl (moved phase current rfl)
  | inserted phase => exact Or.inl (moved phase current rfl)
  | workersCommitted phase rows => exact Or.inl (moved phase current rfl)
  | skipped phase => exact Or.inl (moved phase current rfl)
  | saved phase => exact Or.inl (moved phase current rfl)
  | workerPublished phase => exact Or.inl (moved phase current rfl)
  | workerCommitted phase => exact Or.inl (moved phase current rfl)
  | _ => exact Or.inl current

theorem Transition.guard_of_next {system next : System} {event : Event}
    (transition : Transition system event next) {handler : ℕ} {message : EchoStartMessage}
    {grid : Grid} (current : next.starts handler = .guarded message grid true) :
    system.starts handler = .guarded message grid true ∨
      ofProcessing system.db message.processingId ≠ [] := by
  have moved : ∀ {own : ℕ} {later : StartPhase},
      Function.update system.starts own later handler = .guarded message grid true →
      later ≠ .guarded message grid true → system.starts handler = .guarded message grid true := by
    intro own later after different
    by_cases same : handler = own
    · rw [same, Function.update_self] at after
      exact absurd after different
    · rw [Function.update_of_ne same] at after
      exact after
  cases transition with
  | @guarded own received geoTransform split phase gridEq =>
      change Function.update system.starts own _ handler = _ at current
      by_cases same : handler = own
      · rw [same, Function.update_self] at current
        injection current with sameMessage sameGrid answer
        subst sameMessage
        exact Or.inr ((existsByProcessingId_eq_true_iff _ _).mp answer)
      · rw [Function.update_of_ne same] at current
        exact Or.inl current
  | receive idle => exact Or.inl (moved current StartPhase.noConfusion)
  | giveUp own => exact Or.inl (moved current StartPhase.noConfusion)
  | searched phase transform present => exact Or.inl (moved current StartPhase.noConfusion)
  | orchestratorFound phase => exact Or.inl (moved current StartPhase.noConfusion)
  | orchestratorCommitted phase sameWorkers => exact Or.inl (moved current StartPhase.noConfusion)
  | workersRead phase => exact Or.inl (moved current StartPhase.noConfusion)
  | inserted phase => exact Or.inl (moved current StartPhase.noConfusion)
  | workersCommitted phase rows => exact Or.inl (moved current StartPhase.noConfusion)
  | skipped phase => exact Or.inl (moved current StartPhase.noConfusion)
  | saved phase => exact Or.inl (moved current StartPhase.noConfusion)
  | workerPublished phase => exact Or.inl (moved current StartPhase.noConfusion)
  | workerCommitted phase => exact Or.inl (moved current StartPhase.noConfusion)
  | acknowledged phase => exact Or.inl (moved current StartPhase.noConfusion)
  | _ => exact Or.inl current

theorem guarded_step {message : EchoStartMessage} {system next : System} {event : Event}
    (guarded : Guarded message system) (allowed : OneMessage message system event)
    (stepped : sessions.step system event = some next) : Guarded message next := by
  have transition := step_transition stepped
  refine
    { coherent := transition.coherent guarded.coherent
      sameMessage := ?_
      present := ?_ }
  · intro handler received current sameProcessing
    rcases transition.message_of_next current with earlier | rfl
    · exact guarded.sameMessage handler received earlier sameProcessing
    · exact allowed sameProcessing
  · intro handler received grid current
    apply transition.rows_stay guarded.coherent
    rcases transition.guard_of_next current with earlier | present
    · exact guarded.present handler received grid earlier
    · exact present

theorem OneSet.matches_of_ne_nil {message : EchoStartMessage} {system : System}
    (oneSet : OneSet message system)
    (present : ofProcessing system.db message.processingId ≠ []) :
    MatchesGrid message system.db := by
  rcases oneSet with grid | ⟨empty, _, _⟩
  · exact grid
  · exact absurd empty present

private theorem OneSet.matches_of_created {message : EchoStartMessage} {system : System}
    (oneSet : OneSet message system) {handler : ℕ}
    (created : (system.starts handler).Created message) : MatchesGrid message system.db := by
  rcases oneSet with grid | ⟨_, _, none⟩
  · exact grid
  · exact absurd created (none handler)

theorem OneSet.setStart {message : EchoStartMessage} {system : System}
    (oneSet : OneSet message system) (handler : ℕ) {phase : StartPhase}
    (created : phase.Created message → MatchesGrid message system.db) :
    OneSet message (system.setStart handler phase) := by
  by_cases relies : phase.Created message
  · exact Or.inl (created relies)
  · rcases oneSet with grid | ⟨empty, open_, none⟩
    · exact Or.inl grid
    · exact Or.inr ⟨empty, open_, (Function.forall_update_iff system.starts
        (fun _ current => ¬current.Created message)).mpr ⟨relies, fun other _ => none other⟩⟩

theorem OneSet.setDatabase {message : EchoStartMessage} {system : System}
    (oneSet : OneSet message system) {next : Database}
    (grid : MatchesGrid message system.db → MatchesGrid message next)
    (empty : ofProcessing system.db message.processingId = [] →
      ofProcessing next message.processingId = []) :
    OneSet message { system with db := next } := by
  rcases oneSet with current | ⟨none, open_, relies⟩
  · exact Or.inl (grid current)
  · exact Or.inr ⟨empty none, open_, relies⟩

theorem OneSet.save {message : EchoStartMessage} {system : System}
    (oneSet : OneSet message system) {copy : EchoWorker} (copies : system.db.Copies copy) :
    OneSet message { system with db := save system.db copy } :=
  oneSet.setDatabase (fun grid => grid.save copies)
    (ofProcessing_save_eq_nil_iff copies message.processingId).mpr

theorem OneSet.of_same_rows {message : EchoStartMessage} {system : System}
    (oneSet : OneSet message system) {next : Database}
    (same : ofProcessing next message.processingId =
      ofProcessing system.db message.processingId) :
    OneSet message { system with db := next } :=
  oneSet.setDatabase (fun grid => grid.of_same_rows same) same.trans

theorem matchesGrid_of_insertion {message : EchoStartMessage} {db next : Database}
    {uuid : ℕ → String} {grid : Grid} (gridFor : GridFor message grid)
    (absent : ofProcessing db message.processingId = [])
    (rows : next.workers.rows = db.workers.rows ++
      newWorkers message.processingId message.imageURL uuid grid) :
    MatchesGrid message next := by
  apply matchesGrid_of_rows gridFor
  rw [ofProcessing_append rows (fun row member => (mem_newWorkers member).1), absent,
    List.nil_append]

theorem Transition.oneSet {message : EchoStartMessage} {system next : System} {event : Event}
    (transition : Transition system event next) (guarded : Guarded message system)
    (holds : GuardStillHolds message.processingId system event)
    (oneSet : OneSet message system) : OneSet message next := by
  have coherent := guarded.coherent
  cases transition with
  | @orchestratorCommitted handler received geoTransform database phase sameWorkers =>
      have same := ofProcessing_of_workers_eq sameWorkers message.processingId
      exact (oneSet.of_same_rows same).setStart _ False.elim
  | @workersRead handler received grid scan phase =>
      apply oneSet.setStart
      rintro rfl
      exact oneSet.matches_of_ne_nil (guarded.present _ _ _ phase)
  | @workersCommitted handler received database workers phase rows =>
      obtain ⟨uuid, grid, gridFor, rfl⟩ := coherent.open_start phase
      by_cases own : received.processingId = message.processingId
      · obtain rfl : received = message :=
          guarded.sameMessage handler received (by rw [phase]; rfl) own
        have inserting : received ∈ system.inserting? (.commitWorkers handler) := by
          change (system.starts handler).inserting? = some received
          rw [phase]
          rfl
        have absent := (existsByProcessingId_eq_false_iff _ _).mp (holds received inserting rfl)
        exact Or.inl (matchesGrid_of_insertion gridFor absent rows)
      · have same := ofProcessing_append_other rows
          (fun row member => (mem_newWorkers member).1 ▸ own)
        apply (oneSet.of_same_rows same).setStart
        rintro rfl
        exact absurd rfl own
  | skipped phase =>
      apply oneSet.setStart
      rintro rfl
      exact oneSet.matches_of_created (by rw [phase]; rfl)
  | saved phase =>
      apply oneSet.setStart
      rintro rfl
      exact oneSet.matches_of_created (by rw [phase]; rfl)
  | @workerPublished handler received totalWorkers worker rest phase =>
      have published : OneSet message { system with
          workerMessages := system.workerMessages ++ [workerMessage worker totalWorkers] } :=
        oneSet
      apply published.setStart
      rintro rfl
      exact oneSet.matches_of_created (by rw [phase]; rfl)
  | @workerCommitted handler received totalWorkers worker rest phase =>
      have copies : system.db.Copies (started worker) :=
        (coherent.open_start phase).1.of_assignment_eq rfl
      apply (oneSet.save copies).setStart
      rintro rfl
      exact (oneSet.matches_of_created (by rw [phase]; rfl)).save copies
  | @acknowledged handler received totalWorkers phase =>
      by_cases own : received = message
      · exact Or.inl (oneSet.matches_of_created (by rw [phase]; exact own))
      · have logged : OneSet message { system with
            acknowledged := system.acknowledged ++ [received] } := by
          rcases oneSet with grid | ⟨empty, open_, none⟩
          · exact Or.inl grid
          · refine Or.inr ⟨empty, ?_, none⟩
            simpa [open_] using Ne.symm own
        exact logged.setStart _ False.elim
  | reportCommitted phase => exact oneSet.save (coherent.committable phase).2.1
  | receive idle => exact oneSet.setStart _ False.elim
  | giveUp handler => exact oneSet.setStart _ False.elim
  | searched phase transform present => exact oneSet.setStart _ False.elim
  | orchestratorFound phase => exact oneSet.setStart _ False.elim
  | guarded phase gridEq => exact oneSet.setStart _ False.elim
  | inserted phase => exact oneSet.setStart _ False.elim
  | _ => exact oneSet

theorem guardStillHolds_of_oneSet {message : EchoStartMessage} {system next : System}
    {event : Event} (guarded : Guarded message system) (before : OneSet message system)
    (stepped : sessions.step system event = some next) (after : OneSet message next) :
    GuardStillHolds message.processingId system event := by
  intro received inserting sameProcessing
  rw [existsByProcessingId_eq_false_iff]
  by_contra present
  cases event with
  | commitWorkers handler =>
      change system.commitWorkers handler = some next at stepped
      unfold System.commitWorkers at stepped
      split at stepped
      · rename_i own workers phase
        split at stepped
        · cases stepped
        · rename_i database stored
          have rows := ((saveAll_eq_ok_iff _ _ _).mp stored).2
          cases stepped
          change (system.starts handler).inserting? = some received at inserting
          rw [phase] at inserting
          obtain rfl : own = received := Option.some.inj inserting
          obtain rfl : own = message :=
            guarded.sameMessage handler own (by rw [phase]; rfl) sameProcessing
          obtain ⟨uuid, grid, gridFor, rfl⟩ := guarded.coherent.open_start phase
          obtain ⟨first, firstFor, firstCells⟩ := before.matches_of_ne_nil present
          have grown := ofProcessing_append_ne_nil rows present
          obtain ⟨second, secondFor, secondCells⟩ := after.matches_of_ne_nil grown
          obtain rfl := gridFor.unique firstFor
          obtain rfl := gridFor.unique secondFor
          change (ofProcessing database own.processingId).map EchoWorker.cell = _ at secondCells
          rw [ofProcessing_append rows (fun row member => (mem_newWorkers member).1),
            List.map_append, firstCells, map_cell_newWorkers] at secondCells
          exact gridFor.cells_ne_nil (List.append_right_eq_self.mp secondCells)
      · cases stepped
  | _ => cases inserting

/-- The rows stay one set in all states of a run exactly if every insertion commits while
its guard still holds. -/
theorem workers_created_once_iff {message : EchoStartMessage} {events : List Event}
    {system : System}
    (oneMessage : sessions.EveryStep (OneMessage message) (System.initial Database.empty) events)
    (reached : sessions.Runs (System.initial Database.empty) events system) :
    sessions.EveryState (OneSet message) (System.initial Database.empty) events ↔
      sessions.EveryStep (GuardStillHolds message.processingId) (System.initial Database.empty)
        events := by
  have holds : Guarded message (System.initial Database.empty) :=
    { coherent := coherent_initial Database.empty
      sameMessage := fun _ _ current => by cases current
      present := fun _ _ _ current => by cases current }
  have initially : OneSet message (System.initial Database.empty) :=
    Or.inr ⟨rfl, List.not_mem_nil, fun _ => id⟩
  exact Machine.Runs.everyState_iff_everyStep
    (fun _ _ _ guarded allowed stepped => guarded_step guarded allowed stepped)
    (fun _ _ _ guarded oneSet still stepped =>
      (step_transition stepped).oneSet guarded still oneSet)
    (fun _ _ _ guarded before stepped after =>
      guardStillHolds_of_oneSet guarded before stepped after)
    holds initially oneMessage reached

namespace Sample

open Orchestrator.Sample (startMessage workerMessage)

def grid : Grid :=
  { cells := [{ sizeX := 2000, sizeY := 2000, geoTransform := workerMessage.geoTransform }] }

private theorem gridFor_startMessage : GridFor startMessage grid :=
  ⟨workerMessage.geoTransform, by decide +kernel, by decide +kernel⟩

def untilGuard (handler : ℕ) : List Event :=
  [.receive handler startMessage, .findOrchestrator handler, .commitOrchestrator handler,
    .existsWorkers handler]

def insertion (handler : ℕ) (workerId : String) : List Event :=
  [.insertWorkers handler .none (fun _ => workerId), .commitWorkers handler]

/-- The second delivery asks after the first one has committed its rows. -/
def asksLater : List Event :=
  untilGuard 0 ++ insertion 0 "w" ++ untilGuard 1 ++ [.findWorkers 1 .insertionOrder]

/-- The second delivery asks before the first one has committed its rows. -/
def asksEarly : List Event :=
  untilGuard 0 ++ untilGuard 1 ++ insertion 0 "w" ++ insertion 1 "x"

private theorem oneMessage_asksLater :
    sessions.EveryStep (OneMessage startMessage) (System.initial Database.empty) asksLater := by
  refine sessions.everyStep_of_forall _ ?_
  simp [asksLater, untilGuard, insertion, OneMessage]

end Sample

theorem workers_created_once_iff_asks_later :
    sessions.EveryState (OneSet Orchestrator.Sample.startMessage)
      (System.initial Database.empty) Sample.asksLater := by
  have enabled : (sessions.run (System.initial Database.empty) Sample.asksLater).isSome = true := by
    decide +kernel
  exact (workers_created_once_iff Sample.oneMessage_asksLater (sessions.runs_get enabled)).mpr
    (by decide +kernel)

/-- Both guards find nothing, both insertions commit: two rows for the one cell. -/
theorem overlapping_starts_insert_two_sets :
    ∃ system, sessions.Runs (System.initial Database.empty) Sample.asksEarly system ∧
      (ofProcessing system.db "p").map EchoWorker.workerId = ["w", "x"] ∧
      GridFor Orchestrator.Sample.startMessage Sample.grid ∧ Sample.grid.cells.length = 1 ∧
      ¬OneSet Orchestrator.Sample.startMessage system := by
  have observed : (sessions.run (System.initial Database.empty) Sample.asksEarly).map
      (fun system => (ofProcessing system.db "p").map EchoWorker.workerId) =
        some ["w", "x"] := by
    decide +kernel
  obtain ⟨system, reached, workers⟩ := Option.map_eq_some_iff.mp observed
  refine ⟨system, reached, workers, Sample.gridFor_startMessage, rfl, ?_⟩
  intro oneSet
  have present : ofProcessing system.db "p" ≠ [] := by
    intro empty
    rw [empty] at workers
    cases workers
  obtain ⟨grid, gridFor, cells⟩ := oneSet.matches_of_ne_nil present
  obtain rfl := gridFor.unique Sample.gridFor_startMessage
  have twoWorkers := congrArg List.length workers
  have oneCell := congrArg List.length cells
  change ((ofProcessing system.db "p").map _).length = 1 at oneCell
  rw [List.length_map] at twoWorkers oneCell
  rw [oneCell] at twoWorkers
  cases twoWorkers

end EchoProcessing.Orchestrator.Sessions
