/-
Products that are laid down once.

In a run in which no test meets a product that is only laid down, and no product is laid
down a second time, a product that is finished stays finished. Such runs may end
executions at any point, and test for a product as often as they like.
-/

import EchoProcessing.Library.Progress
import EchoProcessing.Library.SkipIfExists

namespace EchoProcessing.SkipIfExists

universe u v w

theorem finished_iff_getLast? (history : List Mark) :
    Finished history ↔ ∃ execution, history.getLast? = some (.finished execution) := by
  simp only [finished_iff, List.getLast?_eq_some_iff]
  exact exists_comm

instance : DecidablePred Finished := fun history =>
  match last : history.getLast? with
  | some (.finished execution) => .isTrue ((finished_iff_getLast? history).mpr ⟨execution, last⟩)
  | some (.laidDown _) | none => .isFalse (fun finished => by
      obtain ⟨execution, same⟩ := (finished_iff_getLast? history).mp finished
      rw [last] at same
      cases same)

theorem not_finished_nil : ¬Finished [] := by
  decide

section

variable {μ : Type u} {κ : Type v} {γ : Type w}

/-- A test meets a finished product or none, and a product is laid down where there is none. -/
def Phase.Intact (job : Job μ κ γ) (history : κ → List Mark) : Phase μ γ → Prop
  | .delivered message =>
      history (job.target message) = [] ∨ Finished (history (job.target message))
  | .preparing message [] => history (job.target message) = []
  | _ => True

instance Phase.Intact.decidable (job : Job μ κ γ) (history : κ → List Mark) :
    (phase : Phase μ γ) → Decidable (phase.Intact job history)
  | .delivered _ => inferInstanceAs (Decidable (_ = [] ∨ Finished _))
  | .preparing _ [] => inferInstanceAs (Decidable (_ = []))
  | .preparing _ (_ :: _) | .filling _ _ | .idle | .ready _ | .ended => .isTrue trivial

def Intact (job : Job μ κ γ) (state : State μ κ γ) : Event μ → Prop
  | .check execution => (state.phases execution).Intact job state.history
  | .call execution => (state.phases execution).Intact job state.history
  | _ => True

instance Intact.decidable (job : Job μ κ γ) (state : State μ κ γ) :
    (event : Event μ) → Decidable (Intact job state event)
  | .check execution => Phase.Intact.decidable job state.history (state.phases execution)
  | .call execution => Phase.Intact.decidable job state.history (state.phases execution)
  | .deliver _ _ | .report _ | .crash _ => .isTrue trivial

variable {job : Job μ κ γ} {state next : State μ κ γ} {event : Event μ}

theorem Intact.undisturbed (intact : Intact job state event) (ready : ReadyFinished job state) :
    Undisturbed job state event := by
  cases event with
  | check execution =>
      intro message phase present
      change (state.phases execution).Intact job state.history at intact
      rw [phase] at intact
      exact intact.resolve_left present
  | call execution =>
      intro message phase other own current same
      change (state.phases execution).Intact job state.history at intact
      rw [phase] at intact
      have absent : state.history (job.target message) = [] := intact
      have finished := ready other own current
      rw [same, absent] at finished
      exact not_finished_nil finished
  | _ => trivial

variable [DecidableEq κ]

theorem Transition.keeps_finished (transition : Transition job state event next)
    (intact : Intact job state event) {location : κ}
    (finished : Finished (state.history location)) : Finished (next.history location) := by
  cases transition with
  | @laidDown execution message phase =>
      change (state.phases execution).Intact job state.history at intact
      rw [phase] at intact
      have absent : state.history (job.target message) = [] := intact
      change Finished (((state.perform execution _).mark (job.target message) _).history location)
      rw [history_mark]
      by_cases same : location = job.target message
      · rw [same, absent] at finished
        exact absurd finished not_finished_nil
      · rw [if_neg same]
        exact finished
  | @finished execution message phase =>
      change Finished (((state.perform execution _).mark (job.target message) _).history location)
      rw [history_mark]
      by_cases same : location = job.target message
      · rw [if_pos same]
        exact finished_append_finished _ _
      · rw [if_neg same]
        exact finished
  | _ => exact finished

/-! ### The message of an execution -/

/-- An event is about one execution. -/
theorem Transition.phases_of_ne (transition : Transition job state event next) {other : ℕ}
    (different : other ≠ event.execution) : next.phases other = state.phases other := by
  cases transition with
  | _ => exact Function.update_of_ne different _ _

theorem Transition.performed_of_ne (transition : Transition job state event next) {other : ℕ}
    (different : other ≠ event.execution) : next.performed other = state.performed other := by
  cases transition with
  | prepared phase => exact Function.update_of_ne different _ _
  | laidDown phase => exact Function.update_of_ne different _ _
  | filled phase => exact Function.update_of_ne different _ _
  | finished phase => exact Function.update_of_ne different _ _
  | _ => rfl

theorem Transition.message?_of_check (transition : Transition job state event next)
    (works : event = .check event.execution ∨ event = .call event.execution) (execution : ℕ) :
    (next.phases execution).message? = (state.phases execution).message? := by
  by_cases own : execution = event.execution
  · subst own
    cases transition with
    | missing phase absent | found phase present | prepared phase | laidDown phase
    | filled phase | finished phase =>
        simp [phases_setPhase, phase, Event.execution, Phase.message?]
    | _ => rcases works with impossible | impossible <;> cases impossible
  · rw [transition.phases_of_ne own]

/-! ### What a finished product was made with -/

/-- An execution that has nothing more to call. -/
def Phase.Closed : Phase μ γ → Prop
  | .ready _ => True
  | .ended => True
  | _ => False

/-- The product was finished by an execution that made all calls of the program for a message
about it. -/
def Made (job : Job μ κ γ) (known : μ → Prop) (state : State μ κ γ) (location : κ)
    (execution : ℕ) : Prop :=
  (state.phases execution).Closed ∧ ∃ message, known message ∧ job.target message = location ∧
    state.performed execution = (job.program message).calls

structure Recorded (job : Job μ κ γ) (known : μ → Prop) (state : State μ κ γ) : Prop where
  inOrder : InOrder job state
  sourced : Sourced job (fun _ message => known message) state
  made : ∀ location execution, .finished execution ∈ state.history location →
    Made job known state location execution

omit [DecidableEq κ] in
theorem recorded_initial (job : Job μ κ γ) (known : μ → Prop) :
    Recorded job known State.initial :=
  { inOrder := fun _ => rfl
    sourced :=
      { phases := fun _ _ current => by cases current
        history := fun _ _ member => by cases member }
    made := fun _ _ member => by cases member }

omit [DecidableEq κ] in
theorem Recorded.mono {known more : μ → Prop} (recorded : Recorded job known state)
    (grown : ∀ message, known message → more message) : Recorded job more state :=
  { inOrder := recorded.inOrder
    sourced :=
      { phases := fun execution message current =>
          grown message (recorded.sourced.phases execution message current)
        history := by
          intro location mark member
          obtain ⟨message, own, same⟩ := recorded.sourced.history location mark member
          exact ⟨message, grown message own, same⟩ }
    made := by
      intro location execution member
      obtain ⟨closed, message, own, facts⟩ := recorded.made location execution member
      exact ⟨closed, message, grown message own, facts⟩ }

theorem Transition.of_closed (transition : Transition job state event next) {execution : ℕ}
    (closed : (state.phases execution).Closed) :
    (next.phases execution).Closed ∧ next.performed execution = state.performed execution := by
  by_cases own : execution = event.execution
  · subst own
    cases transition with
    | reported phase | crashed =>
        refine ⟨?_, rfl⟩
        rw [Event.execution, phases_setPhase, if_pos rfl]
        trivial
    | delivered phase | missing phase absent | found phase present | prepared phase
    | laidDown phase | filled phase | finished phase =>
        rw [Event.execution, phase] at closed
        cases closed
  · rw [transition.phases_of_ne own, transition.performed_of_ne own]
    exact ⟨closed, rfl⟩

theorem Transition.finished_cases (transition : Transition job state event next) {location : κ}
    {execution : ℕ} (member : .finished execution ∈ next.history location) :
    .finished execution ∈ state.history location ∨
      ∃ message, state.phases execution = .filling message [] ∧ job.target message = location ∧
        next.phases execution = .ready message ∧
        next.performed execution = state.performed execution ++ [(job.program message).finish] := by
  cases transition with
  | @laidDown other message phase =>
      change .finished execution ∈
        ((state.perform other _).mark (job.target message) _).history location at member
      rcases (mem_history_mark _ _ _ _ _).mp member with old | ⟨_, new⟩
      · exact Or.inl old
      · cases new
  | @finished other message phase =>
      change .finished execution ∈
        ((state.perform other _).mark (job.target message) _).history location at member
      rcases (mem_history_mark _ _ _ _ _).mp member with old | ⟨rfl, new⟩
      · exact Or.inl old
      · obtain rfl := Mark.finished.inj new
        refine Or.inr ⟨message, phase, rfl, ?_, ?_⟩
        · rw [phases_setPhase, if_pos rfl]
        · exact (performed_perform _ _ _ _).trans (if_pos rfl)
  | _ => exact Or.inl member

theorem Transition.recorded (transition : Transition job state event next) {known : μ → Prop}
    (gives : Gives (fun _ message => known message) event) (recorded : Recorded job known state) :
    Recorded job known next := by
  refine
    { inOrder := transition.inOrder recorded.inOrder
      sourced := transition.sourced gives recorded.sourced
      made := ?_ }
  intro location execution member
  rcases transition.finished_cases member with old | ⟨message, phase, own, ready, performed⟩
  · obtain ⟨closed, message, own, target, calls⟩ := recorded.made location execution old
    obtain ⟨stillClosed, same⟩ := transition.of_closed closed
    exact ⟨stillClosed, message, own, target, same.trans calls⟩
  · have accounts := recorded.inOrder execution
    rw [phase, Phase.Accounts, List.append_nil] at accounts
    refine ⟨ready ▸ trivial, message, ?_, own, ?_⟩
    · exact recorded.sourced.phases execution message (by rw [phase]; rfl)
    · rw [performed, accounts]
      simp [Program.calls]

omit [DecidableEq κ] in
theorem Recorded.of_finished {known : μ → Prop} (recorded : Recorded job known state)
    {location : κ} (finished : Finished (state.history location)) :
    ∃ execution message, known message ∧ job.target message = location ∧
      state.performed execution = (job.program message).calls := by
  obtain ⟨before, execution, same⟩ := (finished_iff _).mp finished
  have member : .finished execution ∈ state.history location :=
    same ▸ List.mem_append_right _ (List.mem_singleton_self _)
  obtain ⟨_, message, facts⟩ := recorded.made location execution member
  exact ⟨execution, message, facts⟩

/-- One execution has made the product with all calls of its program, and each one that has
laid it down again since then has finished it as well. -/
def Produced (job : Job μ κ γ) (known : μ → Prop) (state : State μ κ γ) (location : κ) : Prop :=
  ∃ before writer after source, state.history location = before ++ .finished writer :: after ∧
    (∀ earlier other later, after = earlier ++ .laidDown other :: later →
      .finished other ∈ later) ∧
    known source ∧ job.target source = location ∧
    state.performed writer = (job.program source).calls

omit [DecidableEq κ] in
theorem Recorded.produced_iff {known : μ → Prop} (recorded : Recorded job known state)
    (location : κ) : Produced job known state location ↔ Finished (state.history location) := by
  constructor
  · rintro ⟨before, writer, after, source, split, again, _⟩
    exact ⟨before, writer, after, split, again⟩
  · rintro ⟨before, writer, after, split, again⟩
    have member : .finished writer ∈ state.history location :=
      split ▸ List.mem_append_right _ List.mem_cons_self
    obtain ⟨_, source, facts⟩ := recorded.made location writer member
    exact ⟨before, writer, after, source, split, again, facts⟩

/-- The message was delivered somewhere in the run. -/
def Known (events : List (Event μ)) (message : μ) : Prop :=
  ∃ execution, .deliver execution message ∈ events

theorem recorded_of_runs {events earlier : List (Event μ)}
    (own : ∀ event ∈ earlier, event ∈ events)
    (reached : job.machine.Runs State.initial earlier state) :
    Recorded job (Known events) state := by
  refine reached.invariant_of_everyStep
    (fun _ _ _ recorded gives stepped => (step_transition stepped).recorded gives recorded)
    (recorded_initial job _) (job.machine.everyStep_of_forall _ ?_)
  intro event member _
  cases event with
  | deliver execution message => exact ⟨execution, own _ member⟩
  | _ => trivial

/-- Every execution that reports next has its product made. -/
def ReadyProduced (job : Job μ κ γ) (known : μ → Prop) (state : State μ κ γ) : Prop :=
  ∀ execution message, state.phases execution = .ready message →
    Produced job known state (job.target message)

theorem readyProduced_iff_undisturbed {events : List (Event μ)}
    (reached : job.machine.Runs State.initial events state) :
    job.machine.EveryState (ReadyProduced job (Known events)) State.initial events ↔
      job.machine.EveryStep (Undisturbed job) State.initial events := by
  rw [← readyFinished_iff_undisturbed reached]
  apply Machine.everyState_congr
  intro before after current split toCurrent
  have recorded : Recorded job (Known events) current :=
    recorded_of_runs (fun event member => split ▸ List.mem_append_left after member) toCurrent
  unfold ReadyProduced ReadyFinished
  simp only [recorded.produced_iff]

/-- Who reports next does so about a finished product, and what is finished has been made. -/
structure Orderly (job : Job μ κ γ) (known : μ → Prop) (state : State μ κ γ) : Prop where
  ready : ReadyFinished job state
  recorded : Recorded job known state

omit [DecidableEq κ] in
theorem orderly_initial (job : Job μ κ γ) (known : μ → Prop) : Orderly job known State.initial :=
  { ready := fun _ _ current => by cases current
    recorded := recorded_initial job known }

theorem Transition.orderly (transition : Transition job state event next)
    (intact : Intact job state event) {known : μ → Prop}
    (gives : Gives (fun _ message => known message) event) (orderly : Orderly job known state) :
    Orderly job known next :=
  { ready := transition.readyFinished (intact.undisturbed orderly.ready) orderly.ready
    recorded := transition.recorded gives orderly.recorded }

/-! ### An execution that is not disturbed -/

theorem Transition.step (transition : Transition job state event next) :
    job.machine.step state event = some next := by
  cases transition with
  | delivered phase | reported phase => simp only [Job.machine, Job.step, phase]
  | missing phase absent =>
      simp only [Job.machine, Job.step, Job.check, phase, absent, List.isEmpty_nil, if_true]
  | found phase present =>
      simp only [Job.machine, Job.step, Job.check, phase, List.isEmpty_iff, if_neg present]
  | prepared phase | laidDown phase | filled phase | finished phase =>
      simp only [Job.machine, Job.step, Job.call, phase]
  | crashed => rfl

/-- No product is only laid down, and there is room for another execution. -/
structure Tidy (state : State μ κ γ) : Prop where
  products : ∀ location, state.history location = [] ∨ Finished (state.history location)
  room : ∃ bound, ∀ execution, bound ≤ execution → state.phases execution = .idle

omit [DecidableEq κ] in
theorem tidy_initial : Tidy (State.initial : State μ κ γ) :=
  { products := fun _ => Or.inl rfl
    room := ⟨0, fun _ _ => rfl⟩ }

/-- The execution is about to report, and all that it has changed is its product. -/
structure Completes (job : Job μ κ γ) (execution : ℕ) (message : μ)
    (state next : State μ κ γ) : Prop where
  ready : next.phases execution = .ready message
  finished : Finished (next.history (job.target message))
  products : ∀ location, location ≠ job.target message →
    next.history location = state.history location
  phases : ∀ other, other ≠ execution → next.phases other = state.phases other

theorem Completes.of_step {execution : ℕ} {message : μ} {middle : State μ κ γ}
    (completes : Completes job execution message middle next)
    (transition : Transition job state event middle) (own : event.execution = execution)
    (products : ∀ location, location ≠ job.target message →
      middle.history location = state.history location) :
    Completes job execution message state next :=
  { ready := completes.ready
    finished := completes.finished
    products := fun location different =>
      (completes.products location different).trans (products location different)
    phases := fun other different =>
      (completes.phases other different).trans (transition.phases_of_ne (own ▸ different)) }

/-- An execution that is left alone makes its calls until it is about to report. -/
def Finishes (job : Job μ κ γ) (execution : ℕ) (message : μ) (state : State μ κ γ) : Prop :=
  ∃ count next, job.machine.Walks (Intact job) state (List.replicate count (.call execution))
    next ∧ Completes job execution message state next

theorem Finishes.of_call {execution : ℕ} {message : μ} {middle : State μ κ γ}
    (finishes : Finishes job execution message middle)
    (transition : Transition job state (.call execution) middle)
    (intact : (state.phases execution).Intact job state.history)
    (products : ∀ location, location ≠ job.target message →
      middle.history location = state.history location) :
    Finishes job execution message state := by
  obtain ⟨count, next, walk, completes⟩ := finishes
  exact ⟨count + 1, next, .cons intact transition.step walk,
    completes.of_step transition rfl products⟩

theorem finishes_of_filling {execution : ℕ} {message : μ} {left : List γ}
    (phase : state.phases execution = .filling message left) :
    Finishes job execution message state := by
  induction left generalizing state with
  | nil =>
      have transition : Transition job state (.call execution) _ := .finished phase
      have intact : Intact job state (.call execution) := by
        change (state.phases execution).Intact job state.history
        rw [phase]
        trivial
      refine ⟨1, _, .single intact transition.step, ?_⟩
      exact
        { ready := Function.update_self _ _ _
          finished := by
            change Finished ((State.mark _ _ _).history _)
            rw [history_mark, if_pos rfl]
            exact finished_append_finished _ _
          products := fun location different => Function.update_of_ne different _ _
          phases := fun other different => Function.update_of_ne different _ _ }
  | cons call left ih =>
      refine Finishes.of_call ?_ (.filled phase) ?_ (fun _ _ => rfl)
      · exact ih (Function.update_self _ _ _)
      · rw [phase]
        trivial

theorem finishes_of_preparing {execution : ℕ} {message : μ} {left : List γ}
    (phase : state.phases execution = .preparing message left)
    (absent : state.history (job.target message) = []) :
    Finishes job execution message state := by
  induction left generalizing state with
  | nil =>
      refine Finishes.of_call ?_ (.laidDown phase) ?_
        (fun location different => Function.update_of_ne different _ _)
      · exact finishes_of_filling (Function.update_self _ _ _)
      · rw [phase]
        exact absent
  | cons call left ih =>
      refine Finishes.of_call ?_ (.prepared phase) ?_ (fun _ _ => rfl)
      · exact ih (Function.update_self _ _ _) absent
      · rw [phase]
        trivial

/-- Where no product is only laid down, an execution that begins can go on to its report. -/
theorem Tidy.exists_ready (tidy : Tidy state) (job : Job μ κ γ) {execution : ℕ}
    (idle : state.phases execution = .idle) (message : μ) :
    ∃ count next, job.machine.Walks (Intact job) state
        (.deliver execution message :: .check execution :: List.replicate count (.call execution))
        next ∧ Completes job execution message state next := by
  have delivered : Transition job state (.deliver execution message) _ := .delivered idle
  have phase : (state.setPhase execution (.delivered message)).phases execution =
      .delivered message := Function.update_self _ _ _
  have intact : Intact job (state.setPhase execution (.delivered message)) (.check execution) := by
    change ((state.setPhase execution (.delivered message)).phases execution).Intact job
      state.history
    rw [phase]
    exact tidy.products (job.target message)
  by_cases absent : state.history (job.target message) = []
  · have checked : Transition job _ (.check execution) _ := .missing phase absent
    have prepared : Finishes job execution message
        ((state.setPhase execution (.delivered message)).setPhase execution
          (.preparing message (job.program message).prepare)) :=
      finishes_of_preparing (Function.update_self _ _ _) absent
    obtain ⟨count, next, walk, completes⟩ := prepared
    exact ⟨count, next, .cons trivial delivered.step (.cons intact checked.step walk),
      (completes.of_step checked rfl (fun _ _ => rfl)).of_step delivered rfl (fun _ _ => rfl)⟩
  · have checked : Transition job _ (.check execution) _ := .found phase absent
    refine ⟨0, _, .cons trivial delivered.step (.single intact checked.step), ?_⟩
    exact
      { ready := Function.update_self _ _ _
        finished := (tidy.products _).resolve_left absent
        products := fun _ _ => rfl
        phases := fun other different =>
          (checked.phases_of_ne different).trans (delivered.phases_of_ne different) }

omit [DecidableEq κ] in
theorem room_of_phases (room : ∃ bound, ∀ other, bound ≤ other → state.phases other = .idle)
    {execution : ℕ}
    (phases : ∀ other, other ≠ execution → next.phases other = state.phases other) :
    ∃ bound, ∀ other, bound ≤ other → next.phases other = .idle := by
  obtain ⟨bound, free⟩ := room
  refine ⟨max bound (execution + 1), ?_⟩
  intro other above
  obtain ⟨old, beyond⟩ := Nat.max_le.mp above
  rw [phases other (by omega)]
  exact free other old

omit [DecidableEq κ] in
theorem Completes.tidy {execution : ℕ} {message : μ} (tidy : Tidy state)
    (completes : Completes job execution message state next) : Tidy next := by
  refine { products := ?_, room := room_of_phases tidy.room completes.phases }
  intro location
  by_cases own : location = job.target message
  · rw [own]
    exact Or.inr completes.finished
  · rw [completes.products location own]
    exact tidy.products location

theorem Transition.tidy (transition : Transition job state event next)
    (ends : event = .report event.execution ∨ event = .crash event.execution)
    (tidy : Tidy state) : Tidy next := by
  have same : next.history = state.history := by
    cases transition with
    | reported phase | crashed => rfl
    | _ => rcases ends with impossible | impossible <;> cases impossible
  refine { products := ?_, room := room_of_phases tidy.room (fun _ => transition.phases_of_ne) }
  rw [same]
  exact tidy.products

/-! ### Products that are still worked on -/

def Phase.Filling : Phase μ γ → Prop
  | .filling _ _ => True
  | _ => False

instance : DecidablePred (Phase.Filling : Phase μ γ → Prop)
  | .filling _ _ => .isTrue trivial
  | .idle | .delivered _ | .preparing _ _ | .ready _ | .ended => .isFalse id

theorem Phase.filling_iff (phase : Phase μ γ) :
    phase.Filling ↔ ∃ message left, phase = .filling message left := by
  constructor
  · intro filling
    cases phase with
    | filling message left => exact ⟨message, left, rfl⟩
    | _ => cases filling
  · rintro ⟨message, left, rfl⟩
    trivial

/-- No execution ends between laying its product down and finishing it. -/
def Lasting (state : State μ κ γ) : Event μ → Prop
  | .crash execution => ¬(state.phases execution).Filling
  | _ => True

instance Lasting.decidable (state : State μ κ γ) : (event : Event μ) →
    Decidable (Lasting state event)
  | .crash execution => inferInstanceAs (Decidable (¬(state.phases execution).Filling))
  | .deliver _ _ | .check _ | .call _ | .report _ => .isTrue trivial

/-- An execution is between laying the product down and finishing it. -/
def Attended (job : Job μ κ γ) (state : State μ κ γ) (location : κ) : Prop :=
  ∃ execution message left, state.phases execution = .filling message left ∧
    job.target message = location

/-- Whatever is only laid down can still be finished, and there is room for another
execution. -/
structure Tended (job : Job μ κ γ) (state : State μ κ γ) : Prop where
  products : ∀ location, state.history location = [] ∨ Finished (state.history location) ∨
    Attended job state location
  room : ∃ bound, ∀ execution, bound ≤ execution → state.phases execution = .idle

omit [DecidableEq κ] in
theorem tended_initial (job : Job μ κ γ) : Tended job State.initial :=
  { products := fun _ => Or.inl rfl
    room := ⟨0, fun _ _ => rfl⟩ }

theorem Transition.filling_cases (transition : Transition job state event next)
    (lasting : Lasting state event) {execution : ℕ} {message : μ} {left : List γ}
    (phase : state.phases execution = .filling message left) :
    (∃ later, next.phases execution = .filling message later) ∨
      Finished (next.history (job.target message)) := by
  by_cases own : execution = event.execution
  · subst own
    cases transition with
    | @filled _ own _ later current =>
        cases phase.symm.trans current
        exact Or.inl ⟨later, Function.update_self _ _ _⟩
    | finished current =>
        cases phase.symm.trans current
        refine Or.inr ?_
        change Finished ((State.mark _ _ _).history _)
        rw [history_mark, if_pos rfl]
        exact finished_append_finished _ _
    | crashed => exact absurd ((Phase.filling_iff _).mpr ⟨message, left, phase⟩) lasting
    | delivered current | missing current _ | found current _ | prepared current
    | laidDown current | reported current => cases phase.symm.trans current
  · rw [transition.phases_of_ne own]
    exact Or.inl ⟨left, phase⟩

theorem Transition.history_cases (transition : Transition job state event next) (location : κ) :
    next.history location = state.history location ∨ Finished (next.history location) ∨
      Attended job next location := by
  cases transition with
  | @laidDown execution message phase =>
      by_cases same : location = job.target message
      · exact Or.inr (Or.inr ⟨execution, message, _, Function.update_self _ _ _, same.symm⟩)
      · exact Or.inl (Function.update_of_ne same _ _)
  | @finished execution message phase =>
      by_cases same : location = job.target message
      · refine Or.inr (Or.inl ?_)
        change Finished ((State.mark _ _ _).history _)
        rw [history_mark, if_pos same]
        exact finished_append_finished _ _
      · exact Or.inl (Function.update_of_ne same _ _)
  | _ => exact Or.inl rfl

theorem Transition.tended (transition : Transition job state event next)
    (lasting : Lasting state event) (tended : Tended job state) : Tended job next := by
  refine { products := ?_, room := room_of_phases tended.room (fun _ => transition.phases_of_ne) }
  intro location
  rcases transition.history_cases location with same | changed
  · rw [same]
    rcases tended.products location with absent | finished | ⟨execution, message, left, phase, own⟩
    · exact Or.inl absent
    · exact Or.inr (Or.inl finished)
    · rcases transition.filling_cases lasting phase with ⟨later, still⟩ | finished
      · exact Or.inr (Or.inr ⟨execution, message, later, still, own⟩)
      · rw [own, same] at finished
        exact Or.inr (Or.inl finished)
  · exact Or.inr changed

theorem Tended.of_runs {events : List (Event μ)} (tended : Tended job state)
    (lasting : job.machine.EveryStep Lasting state events)
    (reached : job.machine.Runs state events next) : Tended job next :=
  reached.invariant_of_everyStep
    (fun _ _ _ holds lasts stepped => (step_transition stepped).tended lasts holds) tended lasting

omit [DecidableEq κ] in
theorem Tended.tidy (tended : Tended job state)
    (quiet : ∀ execution, ¬(state.phases execution).Filling) : Tidy state := by
  refine { products := ?_, room := tended.room }
  intro location
  rcases tended.products location with absent | finished | ⟨execution, message, left, phase, _⟩
  · exact Or.inl absent
  · exact Or.inr finished
  · exact absurd ((Phase.filling_iff _).mpr ⟨message, left, phase⟩) (quiet execution)

/-- The executions that fill a product can finish it, one after the other. -/
theorem Tended.exists_tidy (tended : Tended job state) :
    ∃ events next, (∀ event ∈ events, event = .call event.execution) ∧
      job.machine.Walks (Intact job) state events next ∧ Tidy next := by
  obtain ⟨bound, room⟩ := tended.room
  have quiet : ∀ execution, bound ≤ execution → ¬(state.phases execution).Filling := by
    intro execution above
    rw [room execution above]
    exact id
  clear room
  induction bound generalizing state with
  | zero =>
      exact ⟨[], state, List.forall_mem_nil _, .refl state,
        tended.tidy (fun execution => quiet execution (Nat.zero_le execution))⟩
  | succ bound ih =>
      by_cases filling : (state.phases bound).Filling
      · obtain ⟨message, left, phase⟩ := (Phase.filling_iff _).mp filling
        have finishes : Finishes job bound message state := finishes_of_filling phase
        obtain ⟨count, middle, walk, completes⟩ := finishes
        have called : ∀ event ∈ List.replicate count (Event.call bound : Event μ),
            event = .call event.execution := by
          intro event member
          rw [List.eq_of_mem_replicate member]
          rfl
        have lasting : job.machine.EveryStep Lasting state
            (List.replicate count (.call bound)) :=
          job.machine.everyStep_of_forall _ (fun event member current => by
            rw [called event member]
            trivial)
        have stillQuiet : ∀ execution, bound ≤ execution →
            ¬(middle.phases execution).Filling := by
          intro execution above
          by_cases own : execution = bound
          · rw [own, completes.ready]
            exact id
          · rw [completes.phases execution own]
            exact quiet execution (by omega)
        obtain ⟨events, next, calls, onward, tidy⟩ :=
          ih (tended.of_runs lasting walk.runs) stillQuiet
        exact ⟨_, next, List.forall_mem_append.mpr ⟨called, calls⟩, walk.trans onward, tidy⟩
      · apply ih tended
        intro execution above
        rcases Nat.eq_or_lt_of_le above with rfl | beyond
        · exact filling
        · exact quiet execution beyond

end

end EchoProcessing.SkipIfExists
