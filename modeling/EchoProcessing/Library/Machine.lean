/-
Partial labelled machines and their finite runs.

A machine offers one partial step; `none` means that the event is not enabled.
Runs are lists of events, so an interleaving is a value and a statement about
every interleaving is a statement about every list. The run rules below are the
only inductions over runs that the protocol modules need.
-/

import Mathlib.Data.List.Induction
import Mathlib.Data.Option.Basic

namespace EchoProcessing

universe u v w z

structure Machine (σ : Type u) (ε : Type v) where
  step : σ → ε → Option σ

namespace Machine

variable {σ : Type u} {ε : Type v} (machine : Machine σ ε)

def run (start : σ) (events : List ε) : Option σ :=
  events.foldlM machine.step start

/-- The run of `events` is enabled throughout and ends in `finish`. -/
def Runs (start : σ) (events : List ε) (finish : σ) : Prop :=
  machine.run start events = some finish

instance [DecidableEq σ] (start : σ) (events : List ε) (finish : σ) :
    Decidable (machine.Runs start events finish) :=
  inferInstanceAs (Decidable (_ = _))

/-- Every step of the run is taken from a state that meets `condition`. -/
def EveryStep (condition : σ → ε → Prop) (start : σ) (events : List ε) : Prop :=
  ∀ before event after state, events = before ++ event :: after →
    machine.Runs start before state → condition state event

/-- Every state that the run passes through satisfies `property`. -/
def EveryState (property : σ → Prop) (start : σ) (events : List ε) : Prop :=
  ∀ before after state, events = before ++ after →
    machine.Runs start before state → property state

@[simp]
theorem runs_nil (start finish : σ) : machine.Runs start [] finish ↔ start = finish := by
  simp [Runs, run]

theorem runs_cons (start finish : σ) (event : ε) (rest : List ε) :
    machine.Runs start (event :: rest) finish ↔
      ∃ next, machine.step start event = some next ∧ machine.Runs next rest finish := by
  simp [Runs, run, Option.bind_eq_some_iff]

theorem Runs.cons {machine : Machine σ ε} {start next finish : σ} {event : ε} {rest : List ε}
    (stepped : machine.step start event = some next) (onward : machine.Runs next rest finish) :
    machine.Runs start (event :: rest) finish :=
  (machine.runs_cons start finish event rest).mpr ⟨next, stepped, onward⟩

theorem Runs.single {machine : Machine σ ε} {start finish : σ} {event : ε}
    (stepped : machine.step start event = some finish) : machine.Runs start [event] finish :=
  .cons stepped rfl

theorem runs_append (start finish : σ) (first second : List ε) :
    machine.Runs start (first ++ second) finish ↔
      ∃ middle, machine.Runs start first middle ∧ machine.Runs middle second finish := by
  simp [Runs, run, Option.bind_eq_some_iff]

theorem runs_snoc (start finish : σ) (events : List ε) (event : ε) :
    machine.Runs start (events ++ [event]) finish ↔
      ∃ last, machine.Runs start events last ∧ machine.step last event = some finish := by
  rw [runs_append]
  constructor
  · rintro ⟨last, toLast, lastStep⟩
    obtain ⟨next, stepped, same⟩ := (machine.runs_cons last finish event []).mp lastStep
    rw [runs_nil] at same
    subst same
    exact ⟨last, toLast, stepped⟩
  · rintro ⟨last, toLast, stepped⟩
    exact ⟨last, toLast, (machine.runs_cons last finish event []).mpr ⟨finish, stepped, rfl⟩⟩

theorem Runs.unique {machine : Machine σ ε} {start left right : σ} {events : List ε}
    (first : machine.Runs start events left) (second : machine.Runs start events right) :
    left = right :=
  Option.some.inj (first.symm.trans second)

theorem runs_get {start : σ} {events : List ε}
    (enabled : (machine.run start events).isSome = true) :
    machine.Runs start events ((machine.run start events).get enabled) :=
  (Option.some_get enabled).symm

theorem EveryStep.of_append {machine : Machine σ ε} {condition : σ → ε → Prop} {start : σ}
    {first second : List ε} (every : machine.EveryStep condition start (first ++ second)) :
    machine.EveryStep condition start first := by
  intro before event after state split reached
  apply every before event (after ++ second) state _ reached
  rw [split, List.append_assoc, List.cons_append]

theorem EveryStep.after {machine : Machine σ ε} {condition : σ → ε → Prop} {start middle : σ}
    {first second : List ε} (every : machine.EveryStep condition start (first ++ second))
    (toMiddle : machine.Runs start first middle) :
    machine.EveryStep condition middle second := by
  intro before event after state split reached
  apply every (first ++ before) event after state
  · rw [split, List.append_assoc]
  · exact (machine.runs_append _ _ _ _).mpr ⟨middle, toMiddle, reached⟩

theorem everyStep_of_forall {condition : σ → ε → Prop} (start : σ) {events : List ε}
    (all : ∀ event ∈ events, ∀ state, condition state event) :
    machine.EveryStep condition start events := by
  intro before event after state split _
  exact all event (split ▸ List.mem_append_right _ List.mem_cons_self) state

theorem everyStep_nil (condition : σ → ε → Prop) (start : σ) :
    machine.EveryStep condition start [] := by
  intro before event after state split _
  cases before <;> cases split

theorem everyStep_cons (condition : σ → ε → Prop) (start : σ) (event : ε) (rest : List ε) :
    machine.EveryStep condition start (event :: rest) ↔
      condition start event ∧
        ∀ next, machine.step start event = some next → machine.EveryStep condition next rest := by
  constructor
  · intro every
    refine ⟨every [] event rest start rfl rfl, ?_⟩
    intro next stepped
    have tail : machine.EveryStep condition start ([event] ++ rest) := every
    exact tail.after ((machine.runs_cons _ _ _ _).mpr ⟨next, stepped, rfl⟩)
  · rintro ⟨first, onward⟩ before other after state split toState
    cases before with
    | nil =>
        obtain ⟨rfl, rfl⟩ := List.cons.inj split
        obtain rfl : start = state := (machine.runs_nil _ _).mp toState
        exact first
    | cons head earlier =>
        obtain ⟨rfl, rfl⟩ := List.cons.inj split
        obtain ⟨next, stepped, toState⟩ := (machine.runs_cons _ _ _ _).mp toState
        exact onward next stepped earlier other after state rfl toState

theorem everyStep_append (condition : σ → ε → Prop) (start : σ) (first second : List ε) :
    machine.EveryStep condition start (first ++ second) ↔
      machine.EveryStep condition start first ∧
        ∀ middle, machine.Runs start first middle → machine.EveryStep condition middle second := by
  constructor
  · intro every
    exact ⟨every.of_append, fun middle toMiddle => every.after toMiddle⟩
  · induction first generalizing start with
    | nil => exact fun both => both.2 start rfl
    | cons event rest ih =>
        rintro ⟨every, onward⟩
        rw [everyStep_cons] at every
        rw [List.cons_append, everyStep_cons]
        refine ⟨every.1, ?_⟩
        intro next stepped
        apply ih next
        refine ⟨every.2 next stepped, ?_⟩
        intro middle toMiddle
        exact onward middle ((machine.runs_cons _ _ _ _).mpr ⟨next, stepped, toMiddle⟩)

theorem EveryStep.imp {machine : Machine σ ε} {left right : σ → ε → Prop} {start : σ}
    {events : List ε} (every : machine.EveryStep left start events)
    (weaker : ∀ state event, left state event → right state event) :
    machine.EveryStep right start events :=
  fun before event after state split reached =>
    weaker state event (every before event after state split reached)

/-- A condition that can be decided for one step can be decided along a run. -/
instance EveryStep.decidable (condition : σ → ε → Prop)
    [∀ state event, Decidable (condition state event)] :
    ∀ start events, Decidable (machine.EveryStep condition start events)
  | start, [] => isTrue (machine.everyStep_nil condition start)
  | start, event :: rest =>
      have onward : Decidable (∀ next, machine.step start event = some next →
          machine.EveryStep condition next rest) :=
        match stepped : machine.step start event with
        | none => isTrue (fun _ impossible => by cases impossible)
        | some next =>
            have := EveryStep.decidable condition next rest
            decidable_of_iff (machine.EveryStep condition next rest)
              ⟨fun every _ same => Option.some.inj same ▸ every, fun all => all next rfl⟩
      decidable_of_iff _ (machine.everyStep_cons condition start event rest).symm

theorem EveryStep.last {machine : Machine σ ε} {condition : σ → ε → Prop} {start last : σ}
    {events : List ε} {event : ε}
    (every : machine.EveryStep condition start (events ++ [event]))
    (reached : machine.Runs start events last) : condition last event :=
  every events event [] last rfl reached

theorem EveryStep.and {machine : Machine σ ε} {left right : σ → ε → Prop} {start : σ}
    {events : List ε} (first : machine.EveryStep left start events)
    (second : machine.EveryStep right start events) :
    machine.EveryStep (fun state event => left state event ∧ right state event) start events :=
  fun before event after state split reached =>
    ⟨first before event after state split reached, second before event after state split reached⟩

theorem everyStep_trivial (start : σ) (events : List ε) :
    machine.EveryStep (fun _ _ => True) start events :=
  fun _ _ _ _ _ _ => trivial

/-- An invariant of every step that meets the condition holds at the end of each
run whose steps all meet it. -/
theorem Runs.invariant_of_everyStep {machine : Machine σ ε} {condition : σ → ε → Prop}
    {property : σ → Prop}
    (preserved : ∀ state event next, property state → condition state event →
      machine.step state event = some next → property next)
    {start finish : σ} {events : List ε} (initially : property start)
    (every : machine.EveryStep condition start events)
    (reached : machine.Runs start events finish) : property finish := by
  induction events using List.reverseRecOn generalizing finish with
  | nil =>
      rw [runs_nil] at reached
      exact reached ▸ initially
  | append_singleton events event ih =>
      obtain ⟨last, toLast, stepped⟩ := (machine.runs_snoc start finish events event).mp reached
      exact preserved last event finish (ih every.of_append toLast) (every.last toLast) stepped

theorem Runs.invariant {machine : Machine σ ε} {property : σ → Prop}
    (preserved : ∀ state event next, property state →
      machine.step state event = some next → property next)
    {start finish : σ} {events : List ε} (initially : property start)
    (reached : machine.Runs start events finish) : property finish :=
  reached.invariant_of_everyStep
    (fun state event next holds _ stepped => preserved state event next holds stepped)
    initially (machine.everyStep_trivial start events)

theorem everyState_of_everyStep {condition : σ → ε → Prop} {property : σ → Prop}
    (preserved : ∀ state event next, property state → condition state event →
      machine.step state event = some next → property next)
    {start : σ} {events : List ε} (initially : property start)
    (every : machine.EveryStep condition start events) :
    machine.EveryState property start events := by
  intro before after state split reached
  subst split
  exact reached.invariant_of_everyStep preserved initially every.of_append

theorem everyState_congr {machine : Machine σ ε} {left right : σ → Prop} {start : σ}
    {events : List ε}
    (same : ∀ before after state, events = before ++ after →
      machine.Runs start before state → (left state ↔ right state)) :
    machine.EveryState left start events ↔ machine.EveryState right start events :=
  ⟨fun always before after state split reached =>
      (same before after state split reached).mp (always before after state split reached),
    fun always before after state split reached =>
      (same before after state split reached).mpr (always before after state split reached)⟩

theorem Runs.step_of_split {machine : Machine σ ε} {start state finish : σ}
    {before after : List ε} {event : ε}
    (reached : machine.Runs start (before ++ event :: after) finish)
    (toState : machine.Runs start before state) :
    ∃ next, machine.step state event = some next ∧
      machine.Runs start (before ++ [event]) next := by
  obtain ⟨middle, toMiddle, onward⟩ := (machine.runs_append _ _ _ _).mp reached
  have same : middle = state := toMiddle.unique toState
  subst same
  obtain ⟨next, stepped, _⟩ := (machine.runs_cons _ _ _ _).mp onward
  exact ⟨next, stepped, (machine.runs_snoc _ _ _ _).mpr ⟨middle, toState, stepped⟩⟩

/-- When the condition of a step is exactly what keeps the property, the property holds
throughout a run of allowed steps if and only if every step meets the condition. -/
theorem Runs.everyState_iff_everyStep {machine : Machine σ ε} {allowed condition : σ → ε → Prop}
    {invariant property : σ → Prop}
    (stable : ∀ state event next, invariant state → allowed state event →
      machine.step state event = some next → invariant next)
    (kept : ∀ state event next, invariant state → property state → condition state event →
      machine.step state event = some next → property next)
    (needed : ∀ state event next, invariant state → property state →
      machine.step state event = some next → property next → condition state event)
    {start finish : σ} {events : List ε} (holds : invariant start) (initially : property start)
    (every : machine.EveryStep allowed start events)
    (reached : machine.Runs start events finish) :
    machine.EveryState property start events ↔ machine.EveryStep condition start events := by
  constructor
  · intro always before event after state split toState
    subst split
    obtain ⟨next, stepped, toNext⟩ := reached.step_of_split toState
    exact needed state event next
      (toState.invariant_of_everyStep stable holds every.of_append)
      (always before (event :: after) state rfl toState) stepped
      (always (before ++ [event]) after next (by simp) toNext)
  · intro met before after state split toState
    subst split
    have both : ∀ current event next, invariant current ∧ property current →
        allowed current event ∧ condition current event →
        machine.step current event = some next → invariant next ∧ property next :=
      fun current event next facts conditions stepped =>
        ⟨stable current event next facts.1 conditions.1 stepped,
          kept current event next facts.1 facts.2 conditions.2 stepped⟩
    exact (toState.invariant_of_everyStep both ⟨holds, initially⟩
      (every.of_append.and met.of_append)).2

/-- When a run of the other machine matches each step that meets the condition, one
matches each run of such steps. -/
theorem Runs.simulated_of_everyStep {τ : Type w} {δ : Type z} {machine : Machine σ ε}
    {other : Machine τ δ} {condition : σ → ε → Prop} {related : σ → τ → Prop}
    (matched : ∀ state event next image, related state image → condition state event →
      machine.step state event = some next →
      ∃ events nextImage, other.Runs image events nextImage ∧ related next nextImage)
    {start finish : σ} {events : List ε} (every : machine.EveryStep condition start events)
    (reached : machine.Runs start events finish) {image : τ} (initially : related start image) :
    ∃ otherEvents finishImage, other.Runs image otherEvents finishImage ∧
      related finish finishImage := by
  induction events using List.reverseRecOn generalizing finish with
  | nil =>
      obtain rfl := (machine.runs_nil start finish).mp reached
      exact ⟨[], image, rfl, initially⟩
  | append_singleton events event ih =>
      obtain ⟨last, toLast, stepped⟩ := (machine.runs_snoc start finish events event).mp reached
      obtain ⟨earlier, lastImage, toImage, relatedLast⟩ := ih every.of_append toLast
      obtain ⟨further, finishImage, onward, relatedFinish⟩ :=
        matched last event finish lastImage relatedLast (every.last toLast) stepped
      exact ⟨earlier ++ further, finishImage,
        (other.runs_append _ _ _ _).mpr ⟨lastImage, toImage, onward⟩, relatedFinish⟩

theorem Runs.simulated {τ : Type w} {δ : Type z} {machine : Machine σ ε} {other : Machine τ δ}
    {related : σ → τ → Prop}
    (matched : ∀ state event next image, related state image →
      machine.step state event = some next →
      ∃ events nextImage, other.Runs image events nextImage ∧ related next nextImage)
    {start finish : σ} {events : List ε} (reached : machine.Runs start events finish)
    {image : τ} (initially : related start image) :
    ∃ otherEvents finishImage, other.Runs image otherEvents finishImage ∧
      related finish finishImage :=
  reached.simulated_of_everyStep
    (fun state event next image holds _ stepped => matched state event next image holds stepped)
    (machine.everyStep_trivial start events) initially

/-- An event leaves its mark: if a mark is absent at the start and can appear
only in a step that meets `cause`, then its presence names such a step. -/
theorem Runs.cause_of_mark {machine : Machine σ ε} {mark : σ → Prop} {cause : σ → ε → Prop}
    (appears : ∀ state event next, machine.step state event = some next →
      mark next → mark state ∨ cause state event)
    {start finish : σ} {events : List ε} (absent : ¬mark start)
    (reached : machine.Runs start events finish) (marked : mark finish) :
    ∃ before event after state, events = before ++ event :: after ∧
      machine.Runs start before state ∧ cause state event := by
  induction events using List.reverseRecOn generalizing finish with
  | nil =>
      rw [runs_nil] at reached
      exact absurd (reached ▸ marked) absent
  | append_singleton events event ih =>
      obtain ⟨last, toLast, stepped⟩ := (machine.runs_snoc start finish events event).mp reached
      rcases appears last event finish stepped marked with earlier | here
      · obtain ⟨before, cause, after, state, split, toState, caused⟩ := ih toLast earlier
        refine ⟨before, cause, after ++ [event], state, ?_, toState, caused⟩
        rw [split, List.append_assoc, List.cons_append]
      · exact ⟨events, event, [], last, rfl, toLast, here⟩

end Machine

end EchoProcessing
