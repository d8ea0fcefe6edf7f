/-
A message broker: what services declare, and where a published message goes.

A declaration is refused where a queue is there with other arguments or a binding names an
exchange that nobody has declared, and otherwise only adds to what is declared. What a
refused connection leaves behind is not modelled. A message is published at an exchange with
a routing key: it is copied into every queue that is bound so, and lost where none is.
-/

import EchoProcessing.Library.Machine
import EchoProcessing.Library.WorkQueue
import Mathlib.Data.Finset.Basic
import Mathlib.Logic.Function.Basic

namespace EchoProcessing

universe u v w x y z t

structure Declaration (ε : Type t) (κ : Type u) (θ : Type v) (α : Type w) where
  exchanges : List ε
  queues : List (θ × α)
  bindings : List ((ε × κ) × θ)
  distinct : (queues.map Prod.fst).Nodup

namespace Declaration

variable {ε : Type t} {κ : Type u} {θ : Type v} {α : Type w}

theorem lookup_queues_eq_some_iff [DecidableEq θ] (declaration : Declaration ε κ θ α) (queue : θ)
    (arguments : α) :
    declaration.queues.lookup queue = some arguments ↔
      (queue, arguments) ∈ declaration.queues := by
  obtain ⟨exchanges, queues, bindings, distinct⟩ := declaration
  change queues.lookup queue = _ ↔ _ ∈ queues
  clear exchanges bindings
  induction queues with
  | nil => simp
  | cons entry rest ih =>
      obtain ⟨name, own⟩ := entry
      rw [List.map_cons, List.nodup_cons] at distinct
      rw [List.lookup_cons, List.mem_cons]
      by_cases same : queue = name
      · subst same
        have absent : (queue, arguments) ∉ rest := by
          intro member
          exact distinct.1 (List.mem_map.mpr ⟨_, member, rfl⟩)
        simp [absent, eq_comm]
      · rw [beq_false_of_ne same]
        simp [same, ih distinct.2]

/-- The queues that both name have the same arguments in both. -/
def Compatible (left right : Declaration ε κ θ α) : Prop :=
  ∀ one ∈ left.queues, ∀ other ∈ right.queues, one.1 = other.1 → one.2 = other.2

theorem Compatible.refl (declaration : Declaration ε κ θ α) :
    declaration.Compatible declaration := by
  intro one oneMember other otherMember same
  rw [List.inj_on_of_nodup_map declaration.distinct oneMember otherMember same]

theorem Compatible.symm {left right : Declaration ε κ θ α} (compatible : left.Compatible right) :
    right.Compatible left :=
  fun one oneMember other otherMember same =>
    (compatible other otherMember one oneMember same.symm).symm

instance [DecidableEq θ] [DecidableEq α] (left right : Declaration ε κ θ α) :
    Decidable (left.Compatible right) :=
  inferInstanceAs (Decidable (∀ one ∈ left.queues, ∀ other ∈ right.queues, _ → _))

end Declaration

structure Topology (ε : Type t) (κ : Type u) (θ : Type v) (α : Type w) where
  /-- The arguments with which a queue was declared. -/
  arguments : θ → Option α
  exchanges : Finset ε
  bindings : Finset ((ε × κ) × θ)

namespace Topology

variable {ε : Type t} {κ : Type u} {θ : Type v} {α : Type w}

def empty : Topology ε κ θ α :=
  { arguments := fun _ => none, exchanges := ∅, bindings := ∅ }

section Bindings

variable [DecidableEq ε] [DecidableEq κ] [DecidableEq θ]

/-- No queue of the declaration is there with other arguments, and each binding names an
exchange that is declared by now. -/
def Admits (topology : Topology ε κ θ α) (declaration : Declaration ε κ θ α) : Prop :=
  (∀ queue ∈ declaration.queues, ∀ found ∈ topology.arguments queue.1, found = queue.2) ∧
    ∀ binding ∈ declaration.bindings,
      binding.1.1 ∈ topology.exchanges ∨ binding.1.1 ∈ declaration.exchanges

instance [DecidableEq α] (topology : Topology ε κ θ α) (declaration : Declaration ε κ θ α) :
    Decidable (topology.Admits declaration) :=
  inferInstanceAs (Decidable ((∀ queue ∈ declaration.queues, ∀ found ∈ _, _) ∧ _))

def add (topology : Topology ε κ θ α) (declaration : Declaration ε κ θ α) : Topology ε κ θ α :=
  { arguments := fun queue => (topology.arguments queue).or (declaration.queues.lookup queue)
    exchanges := topology.exchanges ∪ declaration.exchanges.toFinset
    bindings := topology.bindings ∪ declaration.bindings.toFinset }

def declare? [DecidableEq α] (topology : Topology ε κ θ α) (declaration : Declaration ε κ θ α) :
    Option (Topology ε κ θ α) :=
  if topology.Admits declaration then some (topology.add declaration) else none

def Routes (topology : Topology ε κ θ α) (key : ε × κ) (queue : θ) : Prop :=
  (key, queue) ∈ topology.bindings

instance (topology : Topology ε κ θ α) (key : ε × κ) (queue : θ) :
    Decidable (topology.Routes key queue) :=
  inferInstanceAs (Decidable (_ ∈ topology.bindings))

theorem routes_add (topology : Topology ε κ θ α) (declaration : Declaration ε κ θ α) (key : ε × κ)
    (queue : θ) :
    (topology.add declaration).Routes key queue ↔
      topology.Routes key queue ∨ (key, queue) ∈ declaration.bindings := by
  simp [Routes, add]

theorem mem_exchanges_add (topology : Topology ε κ θ α) (declaration : Declaration ε κ θ α)
    (exchange : ε) :
    exchange ∈ (topology.add declaration).exchanges ↔
      exchange ∈ topology.exchanges ∨ exchange ∈ declaration.exchanges := by
  simp [add]

theorem arguments_add (topology : Topology ε κ θ α) (declaration : Declaration ε κ θ α)
    (queue : θ) :
    (topology.add declaration).arguments queue =
      (topology.arguments queue).or (declaration.queues.lookup queue) := rfl

theorem declare?_eq_some_iff [DecidableEq α] (topology next : Topology ε κ θ α)
    (declaration : Declaration ε κ θ α) :
    topology.declare? declaration = some next ↔
      topology.Admits declaration ∧ next = topology.add declaration := by
  unfold declare?
  rw [Option.ite_none_right_eq_some, Option.some.injEq, eq_comm (a := topology.add _)]

end Bindings

section Connection

variable {σ : Type z} (declaration : σ → Declaration ε κ θ α)

/-- What the services of a list declare, and nothing else. -/
structure DeclaredBy (services : List σ) (topology : Topology ε κ θ α) : Prop where
  arguments : ∀ queue arguments, topology.arguments queue = some arguments ↔
    ∃ service ∈ services, (queue, arguments) ∈ (declaration service).queues
  exchanges : ∀ exchange, exchange ∈ topology.exchanges ↔
    ∃ service ∈ services, exchange ∈ (declaration service).exchanges
  routes : ∀ key queue, topology.Routes key queue ↔
    ∃ service ∈ services, (key, queue) ∈ (declaration service).bindings

theorem declaredBy_empty : DeclaredBy declaration [] (empty : Topology ε κ θ α) :=
  { arguments := by simp [empty]
    exchanges := by simp [empty]
    routes := by simp [Routes, empty] }

/-- Each binding of the service names an exchange that it declares or an earlier one did. -/
def Bindable (earlier : List σ) (service : σ) : Prop :=
  ∀ binding ∈ (declaration service).bindings, ∃ other ∈ earlier ++ [service],
    binding.1.1 ∈ (declaration other).exchanges

variable {declaration}

theorem DeclaredBy.admits_iff {services : List σ} {topology : Topology ε κ θ α}
    (declared : DeclaredBy declaration services topology) (service : σ) :
    topology.Admits (declaration service) ↔
      (∀ earlier ∈ services, (declaration earlier).Compatible (declaration service)) ∧
        Bindable declaration services service := by
  apply and_congr
  · constructor
    · rintro admitted earlier member ⟨name, one⟩ oneMember ⟨_, other⟩ otherMember rfl
      have known := (declared.arguments name one).mpr ⟨earlier, member, oneMember⟩
      exact admitted _ otherMember one known
    · rintro compatible ⟨name, own⟩ ownMember found known
      obtain ⟨earlier, member, foundMember⟩ := (declared.arguments name found).mp known
      exact compatible earlier member _ foundMember _ ownMember rfl
  · simp only [Bindable, declared.exchanges, List.mem_append, List.mem_singleton,
      or_and_right, exists_or, exists_eq_left]

variable [DecidableEq ε] [DecidableEq κ] [DecidableEq θ]

theorem DeclaredBy.add {services : List σ} {topology : Topology ε κ θ α}
    (declared : DeclaredBy declaration services topology) {service : σ}
    (admitted : topology.Admits (declaration service)) :
    DeclaredBy declaration (services ++ [service]) (topology.add (declaration service)) := by
  constructor
  · intro queue arguments
    rw [arguments_add]
    cases known : topology.arguments queue with
    | none =>
        have absent : ¬∃ earlier ∈ services,
            (queue, arguments) ∈ (declaration earlier).queues := by
          rw [← declared.arguments, known]
          exact nofun
        rw [Option.none_or, (declaration service).lookup_queues_eq_some_iff]
        simp only [List.mem_append, List.mem_singleton, or_and_right, exists_or, absent, false_or,
          exists_eq_left]
    | some found =>
        rw [Option.some_or, ← known, declared.arguments]
        simp only [List.mem_append, List.mem_singleton, or_and_right, exists_or, exists_eq_left]
        constructor
        · exact Or.inl
        · intro either
          refine either.elim id ?_
          intro own
          obtain rfl : found = arguments := admitted.1 _ own found known
          exact (declared.arguments queue found).mp known
  · intro exchange
    rw [mem_exchanges_add, declared.exchanges]
    simp only [List.mem_append, List.mem_singleton, or_and_right, exists_or, exists_eq_left]
  · intro key queue
    rw [routes_add, declared.routes]
    simp only [List.mem_append, List.mem_singleton, or_and_right, exists_or, exists_eq_left]

variable [DecidableEq α] (declaration)

/-- The services connect in any order, and again after a restart. -/
def connection : Machine (Topology ε κ θ α) σ where
  step := fun topology service => topology.declare? (declaration service)

variable {declaration}

theorem declaredBy_of_runs {services : List σ} {topology : Topology ε κ θ α}
    (reached : (connection declaration).Runs empty services topology) :
    DeclaredBy declaration services topology := by
  induction services using List.reverseRecOn generalizing topology with
  | nil =>
      obtain rfl := (Machine.runs_nil _ _ _).mp reached
      exact declaredBy_empty declaration
  | append_singleton services service ih =>
      obtain ⟨before, toBefore, connected⟩ := (Machine.runs_snoc _ _ _ _ _).mp reached
      obtain ⟨admitted, rfl⟩ := (before.declare?_eq_some_iff _ _).mp connected
      exact (ih toBefore).add admitted

/-- The broker refuses nobody if and only if all services are compatible, and each of them
finds the exchanges of its bindings. -/
theorem runs_iff_compatible (services : List σ) :
    (∃ topology, (connection declaration).Runs empty services topology) ↔
      (∀ left ∈ services, ∀ right ∈ services,
        (declaration left).Compatible (declaration right)) ∧
      ∀ before service after, services = before ++ service :: after →
        Bindable declaration before service := by
  induction services using List.reverseRecOn with
  | nil => simp
  | append_singleton services service ih =>
      constructor
      · rintro ⟨topology, reached⟩
        obtain ⟨before, toBefore, connected⟩ := (Machine.runs_snoc _ _ _ _ _).mp reached
        obtain ⟨admitted, rfl⟩ := (before.declare?_eq_some_iff _ _).mp connected
        obtain ⟨last, bindable⟩ := ((declaredBy_of_runs toBefore).admits_iff service).mp admitted
        obtain ⟨earlier, bindableEarlier⟩ := ih.mp ⟨before, toBefore⟩
        constructor
        · intro left leftMember right rightMember
          rcases List.mem_append.mp leftMember with leftEarlier | leftLast <;>
            rcases List.mem_append.mp rightMember with rightEarlier | rightLast
          · exact earlier left leftEarlier right rightEarlier
          · exact List.mem_singleton.mp rightLast ▸ last left leftEarlier
          · exact List.mem_singleton.mp leftLast ▸ (last right rightEarlier).symm
          · rw [List.mem_singleton.mp leftLast, List.mem_singleton.mp rightLast]
            exact .refl _
        · intro first other rest split
          cases rest using List.reverseRecOn with
          | nil =>
              obtain ⟨rfl, same⟩ := List.append_inj' split rfl
              exact List.singleton_inj.mp same ▸ bindable
          | append_singleton rest final =>
              rw [← List.cons_append, ← List.append_assoc] at split
              exact bindableEarlier first other rest (List.append_inj' split rfl).1
      · rintro ⟨compatible, bindable⟩
        obtain ⟨before, toBefore⟩ := ih.mpr ⟨fun left leftMember right rightMember =>
            compatible left (List.mem_append_left _ leftMember) right
              (List.mem_append_left _ rightMember),
          fun first other rest split => bindable first other (rest ++ [service]) (by
            rw [split, List.append_assoc, List.cons_append])⟩
        have admitted := ((declaredBy_of_runs toBefore).admits_iff service).mpr
          ⟨fun left leftMember => compatible left (List.mem_append_left _ leftMember) service
            (List.mem_append_right _ (List.mem_singleton_self service)),
            bindable services service [] rfl⟩
        exact ⟨_, (Machine.runs_snoc _ _ _ _ _).mpr ⟨before, toBefore,
          (before.declare?_eq_some_iff _ _).mpr ⟨admitted, rfl⟩⟩⟩

end Connection

end Topology

structure Broker (ε : Type t) (κ : Type u) (θ : Type v) (α : Type w) (ι : Type x) (μ : Type y) where
  topology : Topology ε κ θ α
  queues : θ → WorkQueue ι μ

namespace Broker

variable {ε : Type t} {κ : Type u} {θ : Type v} {α : Type w} {ι : Type x} {μ : Type y}
variable [DecidableEq θ]

def empty : Broker ε κ θ α ι μ :=
  { topology := .empty, queues := fun _ => .empty }

def setQueue (broker : Broker ε κ θ α ι μ) (name : θ) (queue : WorkQueue ι μ) :
    Broker ε κ θ α ι μ :=
  { broker with queues := Function.update broker.queues name queue }

@[simp]
theorem queues_setQueue_self (broker : Broker ε κ θ α ι μ) (name : θ) (queue : WorkQueue ι μ) :
    (broker.setQueue name queue).queues name = queue :=
  Function.update_self ..

theorem queues_setQueue_of_ne (broker : Broker ε κ θ α ι μ) {name other : θ}
    (different : other ≠ name) (queue : WorkQueue ι μ) :
    (broker.setQueue name queue).queues other = broker.queues other :=
  Function.update_of_ne different ..

section Publishing

variable [DecidableEq ε] [DecidableEq κ]

def publish (broker : Broker ε κ θ α ι μ) (key : ε × κ) (message : μ) : Broker ε κ θ α ι μ :=
  { broker with
    queues := fun queue =>
      if broker.topology.Routes key queue then (broker.queues queue).put message
      else broker.queues queue }

def publishAll (broker : Broker ε κ θ α ι μ) (key : ε × κ) (messages : List μ) :
    Broker ε κ θ α ι μ :=
  messages.foldl (fun current message => current.publish key message) broker

@[simp]
theorem topology_publish (broker : Broker ε κ θ α ι μ) (key : ε × κ) (message : μ) :
    (broker.publish key message).topology = broker.topology := rfl

theorem queues_publish_of_routes (broker : Broker ε κ θ α ι μ) {key : ε × κ} {name : θ}
    (routed : broker.topology.Routes key name) (message : μ) :
    (broker.publish key message).queues name = (broker.queues name).put message :=
  if_pos routed

theorem queues_publish_of_not_routes (broker : Broker ε κ θ α ι μ) {key : ε × κ} {name : θ}
    (unrouted : ¬broker.topology.Routes key name) (message : μ) :
    (broker.publish key message).queues name = broker.queues name :=
  if_neg unrouted

@[simp]
theorem publishAll_nil (broker : Broker ε κ θ α ι μ) (key : ε × κ) :
    broker.publishAll key [] = broker := rfl

@[simp]
theorem publishAll_cons (broker : Broker ε κ θ α ι μ) (key : ε × κ) (message : μ) (rest : List μ) :
    broker.publishAll key (message :: rest) = (broker.publish key message).publishAll key rest :=
  rfl

@[simp]
theorem topology_publishAll (broker : Broker ε κ θ α ι μ) (key : ε × κ) (messages : List μ) :
    (broker.publishAll key messages).topology = broker.topology := by
  induction messages generalizing broker with
  | nil => rfl
  | cons message rest ih => rw [publishAll_cons, ih, topology_publish]

theorem unacked_publishAll (broker : Broker ε κ θ α ι μ) (key : ε × κ) (messages : List μ)
    (name : θ) :
    ((broker.publishAll key messages).queues name).unacked = (broker.queues name).unacked := by
  induction messages generalizing broker with
  | nil => rfl
  | cons message rest ih =>
      rw [publishAll_cons, ih]
      by_cases routed : broker.topology.Routes key name
      · rw [broker.queues_publish_of_routes routed]
        rfl
      · rw [broker.queues_publish_of_not_routes routed]

theorem queues_publishAll_of_not_routes (broker : Broker ε κ θ α ι μ) {key : ε × κ} {name : θ}
    (unrouted : ¬broker.topology.Routes key name) (messages : List μ) :
    (broker.publishAll key messages).queues name = broker.queues name := by
  induction messages generalizing broker with
  | nil => rfl
  | cons message rest ih =>
      rw [publishAll_cons, ih (broker.publish key message) unrouted,
        broker.queues_publish_of_not_routes unrouted]

theorem pending_publishAll (broker : Broker ε κ θ α ι μ) (key : ε × κ) (messages : List μ)
    (name : θ) :
    ((broker.publishAll key messages).queues name).pending.Perm
      ((broker.queues name).pending ++
        if broker.topology.Routes key name then messages else []) := by
  induction messages generalizing broker with
  | nil => simp
  | cons message rest ih =>
      rw [publishAll_cons]
      refine (ih _).trans ?_
      rw [topology_publish]
      by_cases routed : broker.topology.Routes key name
      · rw [broker.queues_publish_of_routes routed, if_pos routed, if_pos routed]
        exact (((broker.queues name).pending_put message).append_right rest).trans
          List.perm_middle.symm
      · rw [broker.queues_publish_of_not_routes routed, if_neg routed, if_neg routed]

theorem mem_pending_publishAll (broker : Broker ε κ θ α ι μ) (key : ε × κ) (messages : List μ)
    (name : θ) (other : μ) :
    other ∈ ((broker.publishAll key messages).queues name).pending ↔
      other ∈ (broker.queues name).pending ∨
        (other ∈ messages ∧ broker.topology.Routes key name) := by
  rw [(broker.pending_publishAll key messages name).mem_iff, List.mem_append]
  by_cases routed : broker.topology.Routes key name <;> simp [routed]

end Publishing

section Moves

variable [DecidableEq ε] [DecidableEq κ]

/-- Exactly `gone` has left the queue `name`, and `sent` was published with `key`. -/
structure Moves (before after : Broker ε κ θ α ι μ) (name : θ) (gone : List μ) (key : ε × κ)
    (sent : List μ) : Prop where
  routes : ∀ address queue, before.topology.Routes address queue →
    after.topology.Routes address queue
  conserved : ∀ queue,
    ((after.queues queue).pending ++ if queue = name then gone else []).Perm
      ((before.queues queue).pending ++ if before.topology.Routes key queue then sent else [])
  published : ∀ queue, before.topology.Routes key queue →
    ∀ message ∈ sent, message ∈ (after.queues queue).pending

theorem Moves.kept {before after : Broker ε κ θ α ι μ} {name : θ} {gone sent : List μ} {key : ε × κ}
    (moves : before.Moves after name gone key sent) (queue : θ) {message : μ}
    (member : message ∈ (before.queues queue).pending) :
    message ∈ (after.queues queue).pending ∨ (queue = name ∧ message ∈ gone) := by
  have counted := (moves.conserved queue).mem_iff.mpr (List.mem_append_left _ member)
  rcases List.mem_append.mp counted with still | left
  · exact Or.inl still
  · split at left
    · rename_i own
      exact Or.inr ⟨own, left⟩
    · cases left

theorem Moves.arrived {before after : Broker ε κ θ α ι μ} {name : θ} {gone sent : List μ}
    {key : ε × κ}
    (moves : before.Moves after name gone key sent) (queue : θ) {message : μ}
    (member : message ∈ (after.queues queue).pending) :
    message ∈ (before.queues queue).pending ∨
      (message ∈ sent ∧ before.topology.Routes key queue) := by
  have counted := (moves.conserved queue).mem_iff.mp (List.mem_append_left _ member)
  rcases List.mem_append.mp counted with old | new
  · exact Or.inl old
  · split at new
    · rename_i routed
      exact Or.inr ⟨new, routed⟩
    · cases new

theorem moves_of_pending {before after : Broker ε κ θ α ι μ} (name : θ) (key : ε × κ)
    (routes : ∀ address queue, before.topology.Routes address queue →
      after.topology.Routes address queue)
    (same : ∀ queue, (after.queues queue).pending.Perm (before.queues queue).pending) :
    before.Moves after name [] key [] :=
  { routes := routes
    conserved := by
      intro queue
      simp only [ite_self, List.append_nil]
      exact same queue
    published := fun _ _ _ impossible => by cases impossible }

theorem moves_refl (broker : Broker ε κ θ α ι μ) (name : θ) (key : ε × κ) :
    broker.Moves broker name [] key [] :=
  moves_of_pending name key (fun _ _ routed => routed) (fun _ => List.Perm.refl _)

theorem moves_setQueue (broker : Broker ε κ θ α ι μ) {name : θ} {content : WorkQueue ι μ}
    {gone : List μ} (key : ε × κ)
    (taken : (broker.queues name).pending.Perm (gone ++ content.pending)) :
    broker.Moves (broker.setQueue name content) name gone key [] := by
  constructor
  · exact fun _ _ routed => routed
  · intro queue
    rw [ite_self, List.append_nil]
    by_cases own : queue = name
    · subst own
      rw [queues_setQueue_self, if_pos rfl]
      exact List.perm_append_comm.trans taken.symm
    · rw [queues_setQueue_of_ne _ own, if_neg own, List.append_nil]
  · intro queue routed message impossible
    cases impossible

theorem Moves.setQueue {before middle : Broker ε κ θ α ι μ} {name other : θ} {gone sent : List μ}
    {key : ε × κ} (moves : before.Moves middle name gone key sent) {content : WorkQueue ι μ}
    (same : content.pending.Perm (middle.queues other).pending) :
    before.Moves (middle.setQueue other content) name gone key sent := by
  have pending : ∀ queue, ((middle.setQueue other content).queues queue).pending.Perm
      (middle.queues queue).pending := by
    intro queue
    by_cases own : queue = other
    · subst own
      rw [queues_setQueue_self]
      exact same
    · rw [queues_setQueue_of_ne _ own]
  exact
    { routes := moves.routes
      conserved := fun queue => ((pending queue).append_right _).trans (moves.conserved queue)
      published := fun queue routed message member =>
        (pending queue).mem_iff.mpr (moves.published queue routed message member) }

theorem Moves.publishAll {before middle : Broker ε κ θ α ι μ} {name : θ} {gone : List μ}
    {key : ε × κ} (moves : before.Moves middle name gone key [])
    (topology : middle.topology = before.topology) (sent : List μ) :
    before.Moves (middle.publishAll key sent) name gone key sent := by
  constructor
  · intro address queue routed
    rw [topology_publishAll]
    exact moves.routes address queue routed
  · intro queue
    have old := moves.conserved queue
    rw [ite_self, List.append_nil] at old
    refine ((middle.pending_publishAll key sent queue).append_right _).trans ?_
    rw [topology, List.append_assoc]
    refine (List.perm_append_comm.append_left _).trans ?_
    rw [← List.append_assoc]
    exact old.append_right _
  · intro queue routed message member
    rw [mem_pending_publishAll, topology]
    exact Or.inr ⟨member, routed⟩

end Moves

end Broker

end EchoProcessing
