/-
Queues that deliver at least once.

A message leaves its queue when a delivery of it is acknowledged, and by nothing else: a
consumer that throws or is lost gives its deliveries back. Consumers may take any ready
message, so no order is promised. What is pending is counted as a list up to permutation.
-/

import Mathlib.Data.List.Basic
import Mathlib.Data.List.Perm.Basic

namespace EchoProcessing

universe u v w

structure WorkQueue (ι : Type u) (μ : Type v) where
  ready : List μ
  /-- The deliveries that their consumer has neither acknowledged nor given back. -/
  unacked : List (ι × μ)

namespace WorkQueue

variable {ι : Type u} {μ : Type v}

def empty : WorkQueue ι μ :=
  { ready := [], unacked := [] }

/-- Every message that is not acknowledged. -/
def pending (queue : WorkQueue ι μ) : List μ :=
  queue.ready ++ queue.unacked.map Prod.snd

def put (queue : WorkQueue ι μ) (message : μ) : WorkQueue ι μ :=
  { queue with ready := queue.ready ++ [message] }

/-- The ready message at a position, and the queue without it. -/
def take? (queue : WorkQueue ι μ) (position : ℕ) : Option (μ × WorkQueue ι μ) :=
  queue.ready[position]?.map
    (fun message => (message, { queue with ready := queue.ready.eraseIdx position }))

/-- A message that was taken waits for the acknowledgement of its consumer. -/
def hold (queue : WorkQueue ι μ) (consumer : ι) (message : μ) : WorkQueue ι μ :=
  { queue with unacked := (consumer, message) :: queue.unacked }

section Consumers

variable [DecidableEq ι]

def held (queue : WorkQueue ι μ) (consumer : ι) : List μ :=
  (queue.unacked.filter (fun delivery => delivery.1 = consumer)).map Prod.snd

/-- An acknowledgement over a lost channel has no effect: nothing is held there. -/
def acknowledge (queue : WorkQueue ι μ) (consumer : ι) : WorkQueue ι μ :=
  { queue with unacked := queue.unacked.filter (fun delivery => ¬delivery.1 = consumer) }

def giveBack (queue : WorkQueue ι μ) (consumer : ι) : WorkQueue ι μ :=
  { ready := queue.ready ++ queue.held consumer
    unacked := queue.unacked.filter (fun delivery => ¬delivery.1 = consumer) }

end Consumers

theorem pending_eq_nil_iff (queue : WorkQueue ι μ) :
    queue.pending = [] ↔ queue.ready = [] ∧ queue.unacked = [] := by
  simp [pending]

theorem pending_put (queue : WorkQueue ι μ) (message : μ) :
    (queue.put message).pending.Perm (message :: queue.pending) := by
  unfold pending put
  rw [List.append_assoc, List.singleton_append]
  exact List.perm_middle

theorem take?_eq_some_iff (queue rest : WorkQueue ι μ) (position : ℕ) (message : μ) :
    queue.take? position = some (message, rest) ↔
      queue.ready[position]? = some message ∧
        rest = { queue with ready := queue.ready.eraseIdx position } := by
  unfold take?
  rw [Option.map_eq_some_iff]
  constructor
  · rintro ⟨found, same, pair⟩
    obtain ⟨rfl, rfl⟩ := Prod.mk.inj pair
    exact ⟨same, rfl⟩
  · rintro ⟨same, rfl⟩
    exact ⟨message, same, rfl⟩

theorem unacked_of_take? {queue rest : WorkQueue ι μ} {position : ℕ} {message : μ}
    (taken : queue.take? position = some (message, rest)) : rest.unacked = queue.unacked := by
  obtain ⟨_, rfl⟩ := (queue.take?_eq_some_iff rest position message).mp taken
  rfl

theorem ready_of_take? {queue rest : WorkQueue ι μ} {position : ℕ} {message : μ}
    (taken : queue.take? position = some (message, rest)) :
    queue.ready.Perm (message :: rest.ready) := by
  obtain ⟨found, rfl⟩ := (queue.take?_eq_some_iff rest position message).mp taken
  obtain ⟨bound, rfl⟩ := List.getElem?_eq_some_iff.mp found
  exact (List.getElem_cons_eraseIdx_perm bound).symm

theorem exists_take?_of_ready {queue : WorkQueue ι μ} (some : queue.ready ≠ []) :
    ∃ message rest, queue.take? 0 = .some (message, rest) := by
  obtain ⟨message, others, same⟩ := List.exists_cons_of_ne_nil some
  refine ⟨message, { queue with ready := others }, ?_⟩
  unfold take?
  rw [same]
  rfl

theorem length_ready_of_take? {queue rest : WorkQueue ι μ} {position : ℕ} {message : μ}
    (taken : queue.take? position = some (message, rest)) :
    rest.ready.length < queue.ready.length := by
  rw [(ready_of_take? taken).length_eq, List.length_cons]
  exact Nat.lt_succ_self _

theorem pending_of_take? {queue rest : WorkQueue ι μ} {position : ℕ} {message : μ}
    (taken : queue.take? position = some (message, rest)) :
    queue.pending.Perm (message :: rest.pending) := by
  unfold pending
  rw [unacked_of_take? taken]
  exact (ready_of_take? taken).append_right _

theorem pending_hold (queue : WorkQueue ι μ) (consumer : ι) (message : μ) :
    (queue.hold consumer message).pending.Perm (message :: queue.pending) := by
  unfold pending hold
  rw [List.map_cons]
  exact List.perm_middle

theorem pending_hold_of_take? {queue rest : WorkQueue ι μ} {position : ℕ} {message : μ}
    (taken : queue.take? position = some (message, rest)) (consumer : ι) :
    (rest.hold consumer message).pending.Perm queue.pending :=
  (rest.pending_hold consumer message).trans (pending_of_take? taken).symm

section Consumers

variable [DecidableEq ι]

theorem mem_held (queue : WorkQueue ι μ) (consumer : ι) (message : μ) :
    message ∈ queue.held consumer ↔ (consumer, message) ∈ queue.unacked := by
  simp [held]

theorem unacked_perm (queue : WorkQueue ι μ) (consumer : ι) :
    (queue.unacked.map Prod.snd).Perm
      (queue.held consumer ++ (queue.acknowledge consumer).unacked.map Prod.snd) := by
  unfold held acknowledge
  rw [← List.map_append]
  apply List.Perm.map
  have split := List.filter_append_perm
    (fun delivery : ι × μ => decide (delivery.1 = consumer)) queue.unacked
  simpa only [decide_not] using split.symm

theorem pending_acknowledge (queue : WorkQueue ι μ) (consumer : ι) :
    queue.pending.Perm (queue.held consumer ++ (queue.acknowledge consumer).pending) := by
  have own := (queue.unacked_perm consumer).append_left queue.ready
  refine own.trans ?_
  unfold pending
  rw [← List.append_assoc, ← List.append_assoc]
  exact List.perm_append_comm.append_right _

theorem pending_giveBack (queue : WorkQueue ι μ) (consumer : ι) :
    (queue.giveBack consumer).pending.Perm queue.pending := by
  have own := (queue.unacked_perm consumer).append_left queue.ready
  unfold pending giveBack
  rw [List.append_assoc]
  exact own.symm

theorem mem_unacked_acknowledge (queue : WorkQueue ι μ) (consumer : ι) (delivery : ι × μ) :
    delivery ∈ (queue.acknowledge consumer).unacked ↔
      delivery ∈ queue.unacked ∧ delivery.1 ≠ consumer := by
  simp [acknowledge]

theorem mem_unacked_giveBack (queue : WorkQueue ι μ) (consumer : ι) (delivery : ι × μ) :
    delivery ∈ (queue.giveBack consumer).unacked ↔
      delivery ∈ queue.unacked ∧ delivery.1 ≠ consumer := by
  simp [giveBack]

theorem length_unacked_giveBack_lt (queue : WorkQueue ι μ) {delivery : ι × μ}
    (member : delivery ∈ queue.unacked) :
    (queue.giveBack delivery.1).unacked.length < queue.unacked.length := by
  change (queue.unacked.filter _).length < _
  apply List.length_filter_lt_length_iff_exists.mpr
  exact ⟨delivery, member, by simp⟩

end Consumers

section Tasks

variable {τ : Type w} {read : μ → Option τ} {task nextTask : ι → Option τ}

/-- Whoever holds a delivery is at work on what its message reads as. -/
def HeldBy (queue : WorkQueue ι μ) (read : μ → Option τ) (task : ι → Option τ) : Prop :=
  ∀ delivery ∈ queue.unacked, ∃ job, read delivery.2 = some job ∧ task delivery.1 = some job

theorem heldBy_empty (read : μ → Option τ) (task : ι → Option τ) :
    (empty : WorkQueue ι μ).HeldBy read task := by
  intro delivery member
  cases member

theorem HeldBy.of_subset {queue next : WorkQueue ι μ} (held : queue.HeldBy read task)
    (kept : ∀ delivery ∈ next.unacked,
      delivery ∈ queue.unacked ∧ nextTask delivery.1 = task delivery.1) :
    next.HeldBy read nextTask := by
  intro delivery member
  obtain ⟨old, same⟩ := kept delivery member
  rw [same]
  exact held delivery old

theorem HeldBy.of_unacked_eq {queue next : WorkQueue ι μ} (held : queue.HeldBy read task)
    (same : next.unacked = queue.unacked) : next.HeldBy read task :=
  held.of_subset (fun _ member => ⟨same ▸ member, rfl⟩)

theorem HeldBy.hold {queue : WorkQueue ι μ} {consumer : ι} {message : μ} {job : τ}
    (held : queue.HeldBy read task) (idle : task consumer = none)
    (readable : read message = some job) (own : nextTask consumer = some job)
    (others : ∀ other, other ≠ consumer → nextTask other = task other) :
    (queue.hold consumer message).HeldBy read nextTask := by
  intro delivery member
  rcases List.mem_cons.mp member with rfl | old
  · exact ⟨job, readable, own⟩
  · obtain ⟨earlier, earlierRead, busy⟩ := held delivery old
    refine ⟨earlier, earlierRead, ?_⟩
    rw [others _ ?_]
    · exact busy
    · intro same
      rw [same, idle] at busy
      cases busy

section Consumers

variable [DecidableEq ι]

theorem HeldBy.acknowledge {queue : WorkQueue ι μ} (held : queue.HeldBy read task)
    {consumer : ι} (others : ∀ other, other ≠ consumer → nextTask other = task other) :
    (queue.acknowledge consumer).HeldBy read nextTask := by
  apply held.of_subset
  intro delivery member
  obtain ⟨old, different⟩ := (queue.mem_unacked_acknowledge consumer delivery).mp member
  exact ⟨old, others _ different⟩

theorem HeldBy.giveBack {queue : WorkQueue ι μ} (held : queue.HeldBy read task)
    {consumer : ι} (others : ∀ other, other ≠ consumer → nextTask other = task other) :
    (queue.giveBack consumer).HeldBy read nextTask :=
  held.acknowledge others

theorem HeldBy.task_of_mem_held {queue : WorkQueue ι μ} (held : queue.HeldBy read task)
    {consumer : ι} {message : μ} (member : message ∈ queue.held consumer) :
    ∃ job, read message = some job ∧ task consumer = some job :=
  held _ ((queue.mem_held consumer message).mp member)

end Consumers

end Tasks

end WorkQueue

end EchoProcessing
