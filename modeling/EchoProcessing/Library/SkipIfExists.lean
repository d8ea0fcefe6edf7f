/-
Executions that skip their work when its product exists.

An execution of a job tests for the product of its message. If there is none it runs a
program that lays the product down, fills it and finishes it; then it reports. The test
cannot tell a product that was only laid down from a finished one. Executions overlap
freely and may end at any point.
-/

import EchoProcessing.Library.Machine
import Mathlib.Logic.Function.Basic

namespace EchoProcessing.SkipIfExists

universe u v w

/-- The calls of a program. One lays the product down, and the last one finishes it. -/
structure Program (γ : Type w) where
  prepare : List γ
  layDown : γ
  fill : List γ
  finish : γ

def Program.calls {γ : Type w} (program : Program γ) : List γ :=
  program.prepare ++ program.layDown :: (program.fill ++ [program.finish])

structure Job (μ : Type u) (κ : Type v) (γ : Type w) where
  target : μ → κ
  program : μ → Program γ

/-- What has happened to a product, and in which execution. -/
inductive Mark where
  | laidDown (execution : ℕ)
  | finished (execution : ℕ)
deriving DecidableEq, Repr

inductive Phase (μ : Type u) (γ : Type w) where
  | idle
  | delivered (message : μ)
  | preparing (message : μ) (left : List γ)
  | filling (message : μ) (left : List γ)
  /-- The next thing that this execution does is to report. -/
  | ready (message : μ)
  | ended
deriving DecidableEq, Repr

structure State (μ : Type u) (κ : Type v) (γ : Type w) where
  phases : ℕ → Phase μ γ
  history : κ → List Mark
  /-- The calls that each execution has made. -/
  performed : ℕ → List γ
  reports : List μ

inductive Event (μ : Type u) where
  | deliver (execution : ℕ) (message : μ)
  | check (execution : ℕ)
  | call (execution : ℕ)
  | report (execution : ℕ)
  | crash (execution : ℕ)
deriving DecidableEq, Repr

/-- Some execution has finished the product, and each execution that has laid it down again
since then has finished it as well. -/
def Finished (history : List Mark) : Prop :=
  ∃ before execution after, history = before ++ .finished execution :: after ∧
    ∀ earlier other later, after = earlier ++ .laidDown other :: later → .finished other ∈ later

theorem finished_iff (history : List Mark) :
    Finished history ↔ ∃ before execution, history = before ++ [.finished execution] := by
  constructor
  · rintro ⟨before, execution, after, rfl, again⟩
    rcases List.eq_nil_or_concat after with rfl | ⟨earlier, last, rfl⟩
    · exact ⟨before, execution, rfl⟩
    · cases last with
      | laidDown other =>
          have impossible := again earlier other [] (by rw [List.concat_eq_append])
          cases impossible
      | finished other =>
          exact ⟨before ++ .finished execution :: earlier, other, by simp⟩
  · rintro ⟨before, execution, rfl⟩
    refine ⟨before, execution, [], rfl, ?_⟩
    intro earlier other later split
    exact absurd split.symm (List.append_ne_nil_of_right_ne_nil _ (List.cons_ne_nil _ _))

theorem finished_append_finished (history : List Mark) (execution : ℕ) :
    Finished (history ++ [.finished execution]) :=
  (finished_iff _).mpr ⟨history, execution, rfl⟩

theorem not_finished_append_laidDown (history : List Mark) (execution : ℕ) :
    ¬Finished (history ++ [.laidDown execution]) := by
  rw [finished_iff]
  rintro ⟨before, other, same⟩
  have last := (List.append_inj' same rfl).2
  cases last

section Steps

variable {μ : Type u} {κ : Type v} {γ : Type w} [DecidableEq κ]

def State.initial : State μ κ γ :=
  { phases := fun _ => .idle
    history := fun _ => []
    performed := fun _ => []
    reports := [] }

namespace State

def setPhase (state : State μ κ γ) (execution : ℕ) (phase : Phase μ γ) : State μ κ γ :=
  { state with phases := Function.update state.phases execution phase }

def mark (state : State μ κ γ) (location : κ) (mark : Mark) : State μ κ γ :=
  { state with
    history := Function.update state.history location (state.history location ++ [mark]) }

def perform (state : State μ κ γ) (execution : ℕ) (call : γ) : State μ κ γ :=
  { state with
    performed := Function.update state.performed execution
      (state.performed execution ++ [call]) }

end State

namespace Job

variable (job : Job μ κ γ)

def check (state : State μ κ γ) (execution : ℕ) : Option (State μ κ γ) :=
  match state.phases execution with
  | .delivered message =>
      if (state.history (job.target message)).isEmpty then
        some (state.setPhase execution (.preparing message (job.program message).prepare))
      else some (state.setPhase execution (.ready message))
  | _ => none

def call (state : State μ κ γ) (execution : ℕ) : Option (State μ κ γ) :=
  match state.phases execution with
  | .preparing message (next :: left) =>
      some ((state.perform execution next).setPhase execution (.preparing message left))
  | .preparing message [] =>
      some (((state.perform execution (job.program message).layDown).mark (job.target message)
        (.laidDown execution)).setPhase execution (.filling message (job.program message).fill))
  | .filling message (next :: left) =>
      some ((state.perform execution next).setPhase execution (.filling message left))
  | .filling message [] =>
      some (((state.perform execution (job.program message).finish).mark (job.target message)
        (.finished execution)).setPhase execution (.ready message))
  | _ => none

def step (state : State μ κ γ) : Event μ → Option (State μ κ γ)
  | .deliver execution message =>
      match state.phases execution with
      | .idle => some (state.setPhase execution (.delivered message))
      | _ => none
  | .check execution => job.check state execution
  | .call execution => job.call state execution
  | .report execution =>
      match state.phases execution with
      | .ready message =>
          some ({ state with reports := state.reports ++ [message] }.setPhase execution .ended)
      | _ => none
  | .crash execution => some (state.setPhase execution .ended)

def machine : Machine (State μ κ γ) (Event μ) where
  step := job.step

end Job

/-! ### What a step can do -/

inductive Transition (job : Job μ κ γ) (state : State μ κ γ) :
    Event μ → State μ κ γ → Prop where
  | delivered {execution message} (idle : state.phases execution = .idle) :
      Transition job state (.deliver execution message)
        (state.setPhase execution (.delivered message))
  | missing {execution message} (phase : state.phases execution = .delivered message)
      (absent : state.history (job.target message) = []) :
      Transition job state (.check execution)
        (state.setPhase execution (.preparing message (job.program message).prepare))
  | found {execution message} (phase : state.phases execution = .delivered message)
      (present : state.history (job.target message) ≠ []) :
      Transition job state (.check execution) (state.setPhase execution (.ready message))
  | prepared {execution message next left}
      (phase : state.phases execution = .preparing message (next :: left)) :
      Transition job state (.call execution)
        ((state.perform execution next).setPhase execution (.preparing message left))
  | laidDown {execution message} (phase : state.phases execution = .preparing message []) :
      Transition job state (.call execution)
        (((state.perform execution (job.program message).layDown).mark (job.target message)
          (.laidDown execution)).setPhase execution (.filling message (job.program message).fill))
  | filled {execution message next left}
      (phase : state.phases execution = .filling message (next :: left)) :
      Transition job state (.call execution)
        ((state.perform execution next).setPhase execution (.filling message left))
  | finished {execution message} (phase : state.phases execution = .filling message []) :
      Transition job state (.call execution)
        (((state.perform execution (job.program message).finish).mark (job.target message)
          (.finished execution)).setPhase execution (.ready message))
  | reported {execution message} (phase : state.phases execution = .ready message) :
      Transition job state (.report execution)
        ({ state with reports := state.reports ++ [message] }.setPhase execution .ended)
  | crashed {execution} :
      Transition job state (.crash execution) (state.setPhase execution .ended)

theorem step_transition {job : Job μ κ γ} {state next : State μ κ γ} {event : Event μ}
    (stepped : job.machine.step state event = some next) : Transition job state event next := by
  cases event with
  | deliver execution message =>
      change (match state.phases execution with
        | .idle => some (state.setPhase execution (.delivered message))
        | _ => none) = some next at stepped
      split at stepped
      · rename_i idle
        cases stepped
        exact .delivered idle
      · cases stepped
  | check execution =>
      change job.check state execution = some next at stepped
      unfold Job.check at stepped
      split at stepped
      · rename_i message phase
        split at stepped
        · rename_i absent
          cases stepped
          exact .missing phase (List.isEmpty_iff.mp absent)
        · rename_i present
          cases stepped
          exact .found phase (fun absent => present (List.isEmpty_iff.mpr absent))
      · cases stepped
  | call execution =>
      change job.call state execution = some next at stepped
      unfold Job.call at stepped
      split at stepped
      · rename_i message call left phase
        cases stepped
        exact .prepared phase
      · rename_i message phase
        cases stepped
        exact .laidDown phase
      · rename_i message call left phase
        cases stepped
        exact .filled phase
      · rename_i message phase
        cases stepped
        exact .finished phase
      · cases stepped
  | report execution =>
      change (match state.phases execution with
        | .ready message => some
            ({ state with reports := state.reports ++ [message] }.setPhase execution .ended)
        | _ => none) = some next at stepped
      split at stepped
      · rename_i message phase
        cases stepped
        exact .reported phase
      · cases stepped
  | crash execution =>
      cases stepped
      exact .crashed

omit [DecidableEq κ] in
theorem phases_setPhase (state : State μ κ γ) (execution other : ℕ) (phase : Phase μ γ) :
    (state.setPhase execution phase).phases other =
      if other = execution then phase else state.phases other :=
  Function.update_apply _ _ _ _

theorem history_mark (state : State μ κ γ) (location other : κ) (mark : Mark) :
    (state.mark location mark).history other =
      if other = location then state.history location ++ [mark] else state.history other :=
  Function.update_apply _ _ _ _

theorem mem_history_mark (state : State μ κ γ) (location other : κ) (mark earlier : Mark) :
    earlier ∈ (state.mark location mark).history other ↔
      earlier ∈ state.history other ∨ (other = location ∧ earlier = mark) := by
  rw [history_mark]
  split
  · rename_i same
    subst same
    simp
  · rename_i different
    simp [different]

omit [DecidableEq κ] in
theorem performed_perform (state : State μ κ γ) (execution other : ℕ) (call : γ) :
    (state.perform execution call).performed other =
      if other = execution then state.performed execution ++ [call]
      else state.performed other :=
  Function.update_apply _ _ _ _

/-! ### Reports about finished products -/

/-- Every execution that reports next does so about a finished product. -/
def ReadyFinished (job : Job μ κ γ) (state : State μ κ γ) : Prop :=
  ∀ execution message, state.phases execution = .ready message →
    Finished (state.history (job.target message))

/-- No test meets a product that is laid down and not finished, and no product is laid down
again while an execution has yet to report it. -/
def Undisturbed (job : Job μ κ γ) (state : State μ κ γ) : Event μ → Prop
  | .check execution => ∀ message, state.phases execution = .delivered message →
      state.history (job.target message) ≠ [] → Finished (state.history (job.target message))
  | .call execution => ∀ message, state.phases execution = .preparing message [] →
      ∀ other own, state.phases other = .ready own → job.target own ≠ job.target message
  | _ => True

omit [DecidableEq κ] in
theorem ReadyFinished.setPhase {job : Job μ κ γ} {state : State μ κ γ}
    (holds : ReadyFinished job state) (execution : ℕ) {phase : Phase μ γ}
    (ready : ∀ message, phase = .ready message →
      Finished (state.history (job.target message))) :
    ReadyFinished job (state.setPhase execution phase) := by
  intro other message current
  rw [phases_setPhase] at current
  by_cases same : other = execution
  · rw [if_pos same] at current
    exact ready message current
  · rw [if_neg same] at current
    exact holds other message current

theorem Transition.readyFinished {job : Job μ κ γ} {state next : State μ κ γ} {event : Event μ}
    (transition : Transition job state event next) (undisturbed : Undisturbed job state event)
    (holds : ReadyFinished job state) : ReadyFinished job next := by
  cases transition with
  | delivered idle => exact holds.setPhase _ (fun _ => nofun)
  | missing phase absent => exact holds.setPhase _ (fun _ => nofun)
  | found phase present =>
      apply holds.setPhase
      intro message same
      cases same
      exact undisturbed _ phase present
  | @prepared execution message call left phase =>
      have performed : ReadyFinished job (state.perform execution call) := holds
      exact performed.setPhase _ (fun _ => nofun)
  | @laidDown execution message phase =>
      have marked : ReadyFinished job ((state.perform execution
          (job.program message).layDown).mark (job.target message) (.laidDown execution)) := by
        intro other own current
        rw [history_mark, if_neg (undisturbed message phase other own current)]
        exact holds other own current
      exact marked.setPhase _ (fun _ => nofun)
  | @filled execution message call left phase =>
      have performed : ReadyFinished job (state.perform execution call) := holds
      exact performed.setPhase _ (fun _ => nofun)
  | @finished execution message phase =>
      have marked : ReadyFinished job ((state.perform execution
          (job.program message).finish).mark (job.target message) (.finished execution)) := by
        intro other own current
        rw [history_mark]
        by_cases same : job.target own = job.target message
        · rw [if_pos same]
          exact finished_append_finished _ _
        · rw [if_neg same]
          exact holds other own current
      apply marked.setPhase
      intro own same
      cases same
      rw [history_mark, if_pos rfl]
      exact finished_append_finished _ _
  | @reported execution message phase =>
      have logged : ReadyFinished job { state with reports := state.reports ++ [message] } :=
        holds
      exact logged.setPhase _ (fun _ => nofun)
  | crashed => exact holds.setPhase _ (fun _ => nofun)

theorem undisturbed_of_readyFinished {job : Job μ κ γ} {state next : State μ κ γ}
    {event : Event μ} (stepped : job.machine.step state event = some next)
    (holds : ReadyFinished job next) : Undisturbed job state event := by
  cases event with
  | check execution =>
      intro message phase present
      change job.check state execution = some next at stepped
      unfold Job.check at stepped
      rw [phase] at stepped
      simp only [List.isEmpty_iff, if_neg present, Option.some.injEq] at stepped
      subst stepped
      exact holds execution message (by rw [phases_setPhase, if_pos rfl])
  | call execution =>
      intro message phase other own ready same
      change job.call state execution = some next at stepped
      unfold Job.call at stepped
      rw [phase] at stepped
      simp only [Option.some.injEq] at stepped
      subst stepped
      have different : other ≠ execution := by
        rintro rfl
        rw [phase] at ready
        cases ready
      have claimed := holds other own (by rw [phases_setPhase, if_neg different]; exact ready)
      change Finished (((state.perform execution _).mark (job.target message) _).history
        (job.target own)) at claimed
      rw [history_mark, if_pos same] at claimed
      exact not_finished_append_laidDown _ _ claimed
  | _ => trivial

/-- In a run, all executions that are about to report do so about finished products exactly
when no step disturbs a product. -/
theorem readyFinished_iff_undisturbed {job : Job μ κ γ} {events : List (Event μ)}
    {state : State μ κ γ} (reached : job.machine.Runs State.initial events state) :
    job.machine.EveryState (ReadyFinished job) State.initial events ↔
      job.machine.EveryStep (Undisturbed job) State.initial events := by
  have initially : ReadyFinished job State.initial := fun _ _ current => by cases current
  have stable : ∀ state event next, True → True →
      job.machine.step state event = some next → True := fun _ _ _ _ _ _ => trivial
  exact Machine.Runs.everyState_iff_everyStep stable
    (fun _ _ _ _ holds undisturbed stepped =>
      (step_transition stepped).readyFinished undisturbed holds)
    (fun _ _ _ _ _ stepped holds => undisturbed_of_readyFinished stepped holds)
    trivial initially (job.machine.everyStep_trivial _ events) reached

/-! ### The calls of one execution -/

/-- The calls made so far are those of the program up to this phase, in its order. -/
def Phase.Accounts (job : Job μ κ γ) (performed : List γ) : Phase μ γ → Prop
  | .idle => performed = []
  | .delivered _ => performed = []
  | .preparing message left => performed ++ left = (job.program message).prepare
  | .filling message left => performed ++ left =
      (job.program message).prepare ++ (job.program message).layDown :: (job.program message).fill
  | .ready message => performed = [] ∨ performed = (job.program message).calls
  | .ended => True

def InOrder (job : Job μ κ γ) (state : State μ κ γ) : Prop :=
  ∀ execution, (state.phases execution).Accounts job (state.performed execution)

omit [DecidableEq κ] in
theorem InOrder.setPhase {job : Job μ κ γ} {state : State μ κ γ} (holds : InOrder job state)
    {execution : ℕ} {phase : Phase μ γ}
    (accounts : phase.Accounts job (state.performed execution)) :
    InOrder job (state.setPhase execution phase) := by
  intro other
  rw [phases_setPhase]
  by_cases same : other = execution
  · rw [if_pos same, same]
    exact accounts
  · rw [if_neg same]
    exact holds other

omit [DecidableEq κ] in
theorem InOrder.perform {job : Job μ κ γ} {state : State μ κ γ} (holds : InOrder job state)
    {execution : ℕ} {phase : Phase μ γ} {call : γ}
    (accounts : phase.Accounts job (state.performed execution ++ [call])) :
    InOrder job ((state.perform execution call).setPhase execution phase) := by
  intro other
  rw [phases_setPhase]
  change (if other = execution then phase else state.phases other).Accounts job
    ((state.perform execution call).performed other)
  rw [performed_perform]
  by_cases same : other = execution
  · rw [if_pos same, if_pos same]
    exact accounts
  · rw [if_neg same, if_neg same]
    exact holds other

theorem Transition.inOrder {job : Job μ κ γ} {state next : State μ κ γ} {event : Event μ}
    (transition : Transition job state event next) (holds : InOrder job state) :
    InOrder job next := by
  have accounts : ∀ {execution : ℕ} {phase : Phase μ γ}, state.phases execution = phase →
      phase.Accounts job (state.performed execution) := by
    intro execution phase current
    exact current ▸ holds execution
  cases transition with
  | delivered idle =>
      have none := accounts idle
      exact holds.setPhase none
  | missing phase absent =>
      have none := accounts phase
      exact holds.setPhase (by rw [Phase.Accounts, none, List.nil_append])
  | found phase present => exact holds.setPhase (Or.inl (accounts phase))
  | prepared phase =>
      have soFar := accounts phase
      exact holds.perform (by rw [Phase.Accounts, List.append_assoc]; exact soFar)
  | @laidDown execution message phase =>
      have soFar := accounts phase
      rw [Phase.Accounts, List.append_nil] at soFar
      exact holds.perform (by simp [Phase.Accounts, soFar])
  | filled phase =>
      have soFar := accounts phase
      exact holds.perform (by rw [Phase.Accounts, List.append_assoc]; exact soFar)
  | @finished execution message phase =>
      have soFar := accounts phase
      rw [Phase.Accounts, List.append_nil] at soFar
      exact holds.perform (Or.inr (by simp [soFar, Program.calls]))
  | @reported execution message phase =>
      have logged : InOrder job { state with reports := state.reports ++ [message] } := holds
      exact logged.setPhase trivial
  | crashed => exact holds.setPhase trivial

/-! ### Where a product comes from -/

def Phase.message? : Phase μ γ → Option μ
  | .idle => none
  | .delivered message => some message
  | .preparing message _ => some message
  | .filling message _ => some message
  | .ready message => some message
  | .ended => none

def Mark.execution : Mark → ℕ
  | .laidDown execution => execution
  | .finished execution => execution

/-- Executions work on the messages they were given, and they mark the products of these
messages and no others. -/
structure Sourced (job : Job μ κ γ) (given : ℕ → μ → Prop) (state : State μ κ γ) : Prop where
  phases : ∀ execution message,
    (state.phases execution).message? = some message → given execution message
  history : ∀ location, ∀ mark ∈ state.history location,
    ∃ message, given mark.execution message ∧ job.target message = location

def Gives (given : ℕ → μ → Prop) : Event μ → Prop
  | .deliver execution message => given execution message
  | _ => True

omit [DecidableEq κ] in
theorem Sourced.setPhase {job : Job μ κ γ} {given : ℕ → μ → Prop} {state : State μ κ γ}
    (holds : Sourced job given state) (execution : ℕ) {phase : Phase μ γ}
    (own : ∀ message, phase.message? = some message → given execution message) :
    Sourced job given (state.setPhase execution phase) := by
  refine { phases := ?_, history := holds.history }
  intro other message current
  rw [phases_setPhase] at current
  by_cases same : other = execution
  · subst same
    rw [if_pos rfl] at current
    exact own message current
  · rw [if_neg same] at current
    exact holds.phases other message current

omit [DecidableEq κ] in
theorem Sourced.perform {job : Job μ κ γ} {given : ℕ → μ → Prop} {state : State μ κ γ}
    (holds : Sourced job given state) (execution : ℕ) (call : γ) :
    Sourced job given (state.perform execution call) :=
  { phases := holds.phases
    history := holds.history }

theorem Sourced.mark {job : Job μ κ γ} {given : ℕ → μ → Prop} {state : State μ κ γ}
    (holds : Sourced job given state) {mark : Mark} {message : μ}
    (own : given mark.execution message) :
    Sourced job given (state.mark (job.target message) mark) := by
  refine { phases := holds.phases, history := ?_ }
  intro location other member
  rcases (mem_history_mark _ _ _ _ _).mp member with earlier | ⟨rfl, rfl⟩
  · exact holds.history location other earlier
  · exact ⟨message, own, rfl⟩

theorem Transition.sourced {job : Job μ κ γ} {given : ℕ → μ → Prop} {state next : State μ κ γ}
    {event : Event μ} (transition : Transition job state event next) (gives : Gives given event)
    (holds : Sourced job given state) : Sourced job given next := by
  -- An execution keeps the message that it was given.
  have own : ∀ {execution phase message}, state.phases execution = phase →
      phase.message? = some message → given execution message := by
    intro execution phase message current same
    exact holds.phases execution message (current ▸ same)
  have kept : ∀ {execution phase message}, state.phases execution = phase →
      phase.message? = some message → ∀ other, some message = some other →
        given execution other := by
    intro execution phase message current same other equal
    exact Option.some.inj equal ▸ own current same
  cases transition with
  | @delivered execution message idle =>
      apply holds.setPhase
      intro other same
      exact Option.some.inj same ▸ gives
  | missing phase absent => exact holds.setPhase _ (kept phase rfl)
  | found phase present => exact holds.setPhase _ (kept phase rfl)
  | prepared phase => exact (holds.perform _ _).setPhase _ (kept phase rfl)
  | @laidDown execution message phase =>
      have mine : given (Mark.laidDown execution).execution message := own phase rfl
      exact ((holds.perform _ _).mark mine).setPhase _ (kept phase rfl)
  | filled phase => exact (holds.perform _ _).setPhase _ (kept phase rfl)
  | @finished execution message phase =>
      have mine : given (Mark.finished execution).execution message := own phase rfl
      exact ((holds.perform _ _).mark mine).setPhase _ (kept phase rfl)
  | @reported execution message phase =>
      have logged : Sourced job given { state with reports := state.reports ++ [message] } :=
        { phases := holds.phases, history := holds.history }
      exact logged.setPhase _ (fun _ => nofun)
  | crashed => exact holds.setPhase _ (fun _ => nofun)

def Delivered (events : List (Event μ)) (execution : ℕ) (message : μ) : Prop :=
  .deliver execution message ∈ events

theorem sourced_of_runs {job : Job μ κ γ} {events : List (Event μ)} {state : State μ κ γ}
    (reached : job.machine.Runs State.initial events state) :
    Sourced job (Delivered events) state := by
  have preserved : ∀ before event after, Sourced job (Delivered events) before →
      Gives (Delivered events) event → job.machine.step before event = some after →
      Sourced job (Delivered events) after := by
    intro before event after holds gives stepped
    exact (step_transition stepped).sourced gives holds
  have initially : Sourced job (Delivered events) (State.initial : State μ κ γ) :=
    { phases := fun _ _ => nofun
      history := fun _ _ => nofun }
  have every : ∀ event ∈ events, Gives (Delivered events) event := by
    intro event member
    cases event with
    | deliver execution message => exact member
    | _ => trivial
  exact reached.invariant_of_everyStep preserved initially
    (job.machine.everyStep_of_forall _ (fun event member _ => every event member))

/-- Where messages about different products name different products, a product is only ever
marked by executions about it. -/
theorem same_of_mem_history {job : Job μ κ γ} {events : List (Event μ)} {state : State μ κ γ}
    (reached : job.machine.Runs State.initial events state) {same : μ → μ → Prop}
    (apart : ∀ left right execution other, Delivered events execution left →
      Delivered events other right → job.target left = job.target right → same left right)
    {execution : ℕ} {message : μ} (current : (state.phases execution).message? = some message)
    {mark : Mark} (member : mark ∈ state.history (job.target message)) :
    ∃ writer, Delivered events mark.execution writer ∧ same writer message := by
  have sourced := sourced_of_runs reached
  obtain ⟨writer, delivered, target⟩ := sourced.history _ mark member
  have own := sourced.phases execution message current
  exact ⟨writer, delivered, apart writer message _ _ delivered own target⟩

/-! ### A single execution -/

def Event.execution : Event μ → ℕ
  | .deliver execution _ => execution
  | .check execution => execution
  | .call execution => execution
  | .report execution => execution
  | .crash execution => execution

/-- All other executions are idle, and before its test nothing has been laid down. -/
structure Alone (execution : ℕ) (state : State μ κ γ) : Prop where
  others : ∀ other, other ≠ execution → state.phases other = .idle
  untouched : (state.phases execution = .idle ∨
    ∃ message, state.phases execution = .delivered message) →
    ∀ location, state.history location = []

theorem Transition.alone {job : Job μ κ γ} {execution : ℕ} {state next : State μ κ γ}
    {event : Event μ} (transition : Transition job state event next)
    (own : event.execution = execution) (alone : Alone execution state) :
    Alone execution next := by
  have moved : ∀ {later : State μ κ γ} {phase : Phase μ γ}, later.phases = state.phases →
      ((phase = .idle ∨ ∃ message, phase = .delivered message) →
        ∀ location, later.history location = []) →
      Alone execution (later.setPhase execution phase) := by
    intro later phase samePhases untouched
    refine ⟨?_, ?_⟩
    · intro other different
      rw [phases_setPhase, if_neg different, samePhases]
      exact alone.others other different
    · rw [phases_setPhase, if_pos rfl]
      exact untouched
  cases transition with
  | delivered idle =>
      obtain rfl : _ = execution := own
      exact moved rfl (fun _ => alone.untouched (Or.inl idle))
  | missing phase absent =>
      obtain rfl : _ = execution := own
      exact moved rfl (by simp)
  | found phase present =>
      obtain rfl : _ = execution := own
      exact moved rfl (by simp)
  | prepared phase =>
      obtain rfl : _ = execution := own
      exact moved rfl (by simp)
  | laidDown phase =>
      obtain rfl : _ = execution := own
      exact moved rfl (by simp)
  | filled phase =>
      obtain rfl : _ = execution := own
      exact moved rfl (by simp)
  | finished phase =>
      obtain rfl : _ = execution := own
      exact moved rfl (by simp)
  | reported phase =>
      obtain rfl : _ = execution := own
      exact moved rfl (by simp)
  | crashed =>
      obtain rfl : _ = execution := own
      exact moved rfl (by simp)

omit [DecidableEq κ] in
theorem Alone.undisturbed {job : Job μ κ γ} {execution : ℕ} {state : State μ κ γ}
    {event : Event μ} (own : event.execution = execution) (alone : Alone execution state) :
    Undisturbed job state event := by
  cases event with
  | check other =>
      obtain rfl : other = execution := own
      intro message phase present
      exact absurd (alone.untouched (Or.inr ⟨message, phase⟩) _) present
  | call caller =>
      obtain rfl : caller = execution := own
      intro message phase other own' ready
      by_cases same : other = caller
      · rw [same, phase] at ready
        cases ready
      · rw [alone.others other same] at ready
        cases ready
  | _ => trivial

/-- A single execution disturbs nothing, wherever it ends. -/
theorem everyStep_undisturbed_of_single {job : Job μ κ γ} {execution : ℕ}
    {events : List (Event μ)} (single : ∀ event ∈ events, event.execution = execution) :
    job.machine.EveryStep (Undisturbed job) State.initial events := by
  intro before event after state split toState
  have alone : Alone execution state :=
    toState.invariant_of_everyStep
      (fun _ _ _ holds own stepped => (step_transition stepped).alone own holds)
      ⟨fun _ _ => rfl, fun _ _ => rfl⟩
      (job.machine.everyStep_of_forall _ (fun earlier member _ =>
        single earlier (split ▸ List.mem_append_left _ member)))
  exact alone.undisturbed (single event (split ▸ List.mem_append_right _ List.mem_cons_self))

end Steps

end EchoProcessing.SkipIfExists
