/-
Runs that can be continued to a goal.

A state leads to another where some run of allowed events goes from one to the other. What
a short run can always decrease can be brought to zero, and what can be emptied one after
the other can be emptied in one run, provided that no later part refills an earlier one.
A machine that can take each step of another one can take each of its runs.
-/

import EchoProcessing.Library.Machine

namespace EchoProcessing.Machine

universe u v w z

variable {σ : Type u} {ε : Type v} {machine : Machine σ ε} {allowed : ε → Prop}

/-- Some run of allowed events goes from the first state to the second. -/
def Leads (machine : Machine σ ε) (allowed : ε → Prop) (start finish : σ) : Prop :=
  ∃ events, (∀ event ∈ events, allowed event) ∧ machine.Runs start events finish

theorem Leads.refl (start : σ) : machine.Leads allowed start start :=
  ⟨[], List.forall_mem_nil _, rfl⟩

theorem Leads.trans {start middle finish : σ} (first : machine.Leads allowed start middle)
    (second : machine.Leads allowed middle finish) : machine.Leads allowed start finish := by
  obtain ⟨earlier, earlierAllowed, toMiddle⟩ := first
  obtain ⟨later, laterAllowed, toFinish⟩ := second
  refine ⟨earlier ++ later, ?_, (machine.runs_append _ _ _ _).mpr ⟨middle, toMiddle, toFinish⟩⟩
  intro event member
  exact (List.mem_append.mp member).elim (earlierAllowed event) (laterAllowed event)

theorem Leads.single {start finish : σ} {event : ε}
    (stepped : machine.step start event = some finish) (good : allowed event) :
    machine.Leads allowed start finish :=
  ⟨[event], List.forall_mem_singleton.mpr good, .single stepped⟩

theorem Leads.invariant {property : σ → Prop}
    (preserved : ∀ state event next, allowed event → property state →
      machine.step state event = some next → property next)
    {start finish : σ} (leads : machine.Leads allowed start finish) (initially : property start) :
    property finish := by
  obtain ⟨events, everyAllowed, reached⟩ := leads
  induction events generalizing start with
  | nil =>
      obtain rfl := (Machine.runs_nil _ _ _).mp reached
      exact initially
  | cons event rest ih =>
      obtain ⟨next, stepped, onward⟩ := (Machine.runs_cons _ _ _ _ _).mp reached
      obtain ⟨good, others⟩ := List.forall_mem_cons.mp everyAllowed
      exact ih (preserved start event next good initially stepped) others onward

/-- A run whose steps all meet the condition. -/
structure Walks (machine : Machine σ ε) (condition : σ → ε → Prop) (start : σ)
    (events : List ε) (finish : σ) : Prop where
  every : machine.EveryStep condition start events
  runs : machine.Runs start events finish

section Walks

variable {condition : σ → ε → Prop}

theorem Walks.refl (start : σ) : machine.Walks condition start [] start :=
  ⟨machine.everyStep_nil condition start, rfl⟩

theorem Walks.cons {start next finish : σ} {event : ε} {rest : List ε}
    (good : condition start event) (stepped : machine.step start event = some next)
    (onward : machine.Walks condition next rest finish) :
    machine.Walks condition start (event :: rest) finish := by
  refine ⟨(machine.everyStep_cons _ _ _ _).mpr ⟨good, ?_⟩, .cons stepped onward.runs⟩
  intro other same
  obtain rfl := Option.some.inj (stepped.symm.trans same)
  exact onward.every

theorem Walks.trans {start middle finish : σ} {first second : List ε}
    (toMiddle : machine.Walks condition start first middle)
    (onward : machine.Walks condition middle second finish) :
    machine.Walks condition start (first ++ second) finish := by
  refine ⟨(machine.everyStep_append _ _ _ _).mpr ⟨toMiddle.every, ?_⟩,
    (machine.runs_append _ _ _ _).mpr ⟨middle, toMiddle.runs, onward.runs⟩⟩
  intro other reached
  obtain rfl := toMiddle.runs.unique reached
  exact onward.every

theorem Walks.single {start finish : σ} {event : ε} (good : condition start event)
    (stepped : machine.step start event = some finish) :
    machine.Walks condition start [event] finish :=
  .cons good stepped (.refl finish)

theorem walks_cons {start finish : σ} {event : ε} {rest : List ε} :
    machine.Walks condition start (event :: rest) finish ↔ condition start event ∧
      ∃ next, machine.step start event = some next ∧
        machine.Walks condition next rest finish := by
  constructor
  · rintro ⟨every, runs⟩
    obtain ⟨next, stepped, onward⟩ := (Machine.runs_cons _ _ _ _ _).mp runs
    obtain ⟨good, others⟩ := (machine.everyStep_cons _ _ _ _).mp every
    exact ⟨good, next, stepped, others next stepped, onward⟩
  · rintro ⟨good, next, stepped, onward⟩
    exact .cons good stepped onward

theorem Walks.map {τ : Type w} {δ : Type z} {whole : Machine τ δ} {meets : τ → δ → Prop}
    (embed : σ → τ) (rename : ε → δ)
    (lifts : ∀ state event next, allowed event → condition state event →
      machine.step state event = some next →
      whole.step (embed state) (rename event) = some (embed next) ∧
        meets (embed state) (rename event))
    {start finish : σ} {events : List ε} (good : ∀ event ∈ events, allowed event)
    (walk : machine.Walks condition start events finish) :
    whole.Walks meets (embed start) (events.map rename) (embed finish) := by
  induction events generalizing start with
  | nil =>
      obtain rfl := (Machine.runs_nil _ _ _).mp walk.runs
      exact .refl _
  | cons event rest ih =>
      obtain ⟨holds, next, stepped, onward⟩ := walks_cons.mp walk
      obtain ⟨own, others⟩ := List.forall_mem_cons.mp good
      obtain ⟨taken, met⟩ := lifts start event next own holds stepped
      exact .cons met taken (ih others onward)

/-- Where each step of another machine is a part of a walk, each run of it is. -/
theorem exists_walk_of_runs {τ : Type w} {δ : Type z} {other : Machine τ δ} (part : ε → Option δ)
    (related : σ → τ → Prop)
    (lifts : ∀ state image event next, related state image → other.step image event = some next →
      ∃ events after, machine.Walks condition state events after ∧
        events.filterMap part = [event] ∧ related after next)
    {start : σ} {image finish : τ} {inner : List δ} (initially : related start image)
    (reached : other.Runs image inner finish) :
    ∃ events after, machine.Walks condition start events after ∧
      events.filterMap part = inner ∧ related after finish := by
  induction inner generalizing start image with
  | nil =>
      obtain rfl := (Machine.runs_nil _ _ _).mp reached
      exact ⟨[], start, .refl start, rfl, initially⟩
  | cons event rest ih =>
      obtain ⟨next, stepped, onward⟩ := (Machine.runs_cons _ _ _ _ _).mp reached
      obtain ⟨first, middle, toMiddle, own, holds⟩ := lifts start image event next initially stepped
      obtain ⟨second, after, toAfter, others, finally_⟩ := ih holds onward
      refine ⟨first ++ second, after, toMiddle.trans toAfter, ?_, finally_⟩
      rw [List.filterMap_append, own, others]
      rfl

end Walks

/-- A measure that can always be decreased can be brought to zero. -/
theorem exists_leads_of_decreasing (invariant : σ → Prop) (measure : σ → ℕ)
    (frame : σ → σ → Prop) (refl : ∀ state, frame state state)
    (trans : ∀ {first second third}, frame first second → frame second third → frame first third)
    (decrease : ∀ state, invariant state → measure state ≠ 0 → ∃ next,
      machine.Leads allowed state next ∧ invariant next ∧ frame state next ∧
        measure next < measure state)
    {start : σ} (holds : invariant start) :
    ∃ finish, machine.Leads allowed start finish ∧ invariant finish ∧ frame start finish ∧
      measure finish = 0 := by
  induction size : measure start using Nat.strongRecOn generalizing start with
  | _ bound ih =>
      by_cases zero : measure start = 0
      · exact ⟨start, .refl start, holds, refl start, zero⟩
      · obtain ⟨next, toNext, nextHolds, kept, less⟩ := decrease start holds zero
        obtain ⟨finish, onward, finishHolds, finishKept, done⟩ :=
          ih (measure next) (size ▸ less) nextHolds rfl
        exact ⟨finish, toNext.trans onward, finishHolds, trans kept finishKept, done⟩

/-- The parts of a list can be emptied in its order, where each part that is emptied leaves
the earlier ones empty. -/
theorem exists_leads_of_pairwise {ι : Type w} (invariant : σ → Prop) (empty : ι → σ → Prop)
    {before : ι → ι → Prop} {parts : List ι}
    (phase : ∀ part ∈ parts, ∀ state, invariant state → ∃ finish,
      machine.Leads allowed state finish ∧ invariant finish ∧ empty part finish ∧
        ∀ earlier, before earlier part → empty earlier state → empty earlier finish)
    (ordered : parts.Pairwise before) {start : σ} (holds : invariant start) :
    ∃ finish, machine.Leads allowed start finish ∧ invariant finish ∧
      ∀ part ∈ parts, empty part finish := by
  induction parts using List.reverseRecOn with
  | nil => exact ⟨start, .refl start, holds, List.forall_mem_nil _⟩
  | append_singleton parts part ih =>
      obtain ⟨earlierOrdered, _, crossed⟩ := List.pairwise_append.mp ordered
      obtain ⟨earlierPhase, lastPhase⟩ := List.forall_mem_append.mp phase
      obtain ⟨middle, toMiddle, middleHolds, emptied⟩ := ih earlierPhase earlierOrdered
      obtain ⟨finish, onward, finishHolds, own, kept⟩ :=
        lastPhase part (List.mem_singleton_self part) middle middleHolds
      refine ⟨finish, toMiddle.trans onward, finishHolds, ?_⟩
      have earlier : ∀ other ∈ parts, empty other finish := fun other member =>
        kept other (crossed other member part (List.mem_singleton_self part)) (emptied other member)
      exact List.forall_mem_append.mpr ⟨earlier, List.forall_mem_singleton.mpr own⟩

end EchoProcessing.Machine
