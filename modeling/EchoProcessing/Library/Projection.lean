/-
The part of a run that concerns one domain.

The events of the domain are kept in their order and all others are dropped. Where the
others leave the view of the domain alone, and its own events only depend on that view,
the kept events are a run of their own, which ends with the same view.
-/

import EchoProcessing.Library.Machine

namespace EchoProcessing.Machine

universe u v

variable {σ : Type u} {ε : Type v} (machine : Machine σ ε) (concerns : σ → ε → Prop)
  [∀ state event, Decidable (concerns state event)]

/-- The events that concern the domain in the state in which each is taken. -/
def project : σ → List ε → List ε
  | _, [] => []
  | state, event :: rest =>
      match machine.step state event with
      | none => []
      | some next =>
          if concerns state event then event :: project next rest else project next rest

variable {machine} {concerns}

theorem project_of_concerns {state next : σ} {event : ε} (rest : List ε)
    (stepped : machine.step state event = some next) (own : concerns state event) :
    machine.project concerns state (event :: rest) =
      event :: machine.project concerns next rest := by
  simp only [project, stepped, if_pos own]

theorem project_of_not_concerns {state next : σ} {event : ε} (rest : List ε)
    (stepped : machine.step state event = some next) (other : ¬concerns state event) :
    machine.project concerns state (event :: rest) = machine.project concerns next rest := by
  simp only [project, stepped, if_neg other]

theorem project_sublist (machine : Machine σ ε) (state : σ) (events : List ε) :
    (machine.project concerns state events).Sublist events := by
  induction events generalizing state with
  | nil => exact List.Sublist.slnil
  | cons event rest ih =>
      cases stepped : machine.step state event with
      | none =>
          simp only [project, stepped]
          exact List.nil_sublist _
      | some next =>
          by_cases own : concerns state event
          · rw [project_of_concerns rest stepped own]
            exact (ih next).cons_cons event
          · rw [project_of_not_concerns rest stepped own]
            exact (ih next).cons event

/-- The events of the domain make a run of their own: its own steps are matched, and
the steps of the others cannot be seen. -/
theorem Runs.projected {condition : σ → ε → Prop} {invariant : σ → Prop} {related : σ → σ → Prop}
    (stable : ∀ state event next, invariant state → machine.step state event = some next →
      invariant next)
    (matched : ∀ state image event next, invariant state → related state image →
      condition state event → concerns state event → machine.step state event = some next →
      concerns image event ∧
        ∃ nextImage, machine.step image event = some nextImage ∧ related next nextImage)
    (unseen : ∀ state image event next, invariant state → related state image →
      ¬concerns state event → machine.step state event = some next → related next image)
    {start finish image : σ} {events : List ε} (holds : invariant start)
    (initially : related start image) (every : machine.EveryStep condition start events)
    (reached : machine.Runs start events finish) :
    machine.EveryStep concerns image (machine.project concerns start events) ∧
      ∃ finishImage, machine.Runs image (machine.project concerns start events) finishImage ∧
        related finish finishImage := by
  induction events generalizing start image with
  | nil =>
      obtain rfl := (machine.runs_nil start finish).mp reached
      exact ⟨machine.everyStep_nil _ _, image, rfl, initially⟩
  | cons event rest ih =>
      obtain ⟨next, stepped, onward⟩ := (machine.runs_cons _ _ _ _).mp reached
      obtain ⟨met, everyNext⟩ := (machine.everyStep_cons _ _ _ _).mp every
      have nextHolds := stable start event next holds stepped
      by_cases own : concerns start event
      · obtain ⟨imageOwn, nextImage, imageStepped, nextRelated⟩ :=
          matched start image event next holds initially met own stepped
        obtain ⟨all, finishImage, toFinish, related⟩ :=
          ih nextHolds nextRelated (everyNext next stepped) onward
        rw [project_of_concerns rest stepped own]
        refine ⟨?_, finishImage, .cons imageStepped toFinish, related⟩
        rw [everyStep_cons]
        refine ⟨imageOwn, ?_⟩
        intro other otherStepped
        rw [imageStepped] at otherStepped
        exact Option.some.inj otherStepped ▸ all
      · rw [project_of_not_concerns rest stepped own]
        exact ih nextHolds (unseen start image event next holds initially own stepped)
          (everyNext next stepped) onward

end EchoProcessing.Machine
