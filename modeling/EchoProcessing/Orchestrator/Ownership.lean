/-
Which processing the copies and the merges belong to.

A handler only holds copies of the rows of its own message, and a merge message lists
tiles of its own rows; rows keep their processing, so both stay true in every run.
-/

import EchoProcessing.Orchestrator.MergeSafety

namespace EchoProcessing.Orchestrator

open EchoWorkerRepository EchoWorkerService

/-- The copies of a handler are rows of the processing of its message. -/
def Handler.Owns : Handler → Prop
  | .starting message _ workers => ∀ copy ∈ workers, copy.processingId = message.processingId
  | _ => True

/-- Every tile of the merge is the one of a committed row of its processing. -/
def OwnTiles (db : Database) (merge : EchoMergeMessage) : Prop :=
  ∀ tile ∈ merge.tileURLs,
    ∃ workerId ∈ (ofProcessing db merge.processingId).map EchoWorker.workerId,
      tile = some (Image.tileURL merge.processingId workerId)

structure Owned (system : System) : Prop where
  consistent : Consistent system
  copies : ∀ handler, (system.handlers handler).Owns
  merges : ∀ merge ∈ system.mergeMessages, OwnTiles system.db merge

theorem owned_initial : Owned (System.initial Database.empty) :=
  { consistent := consistent_initial
    copies := fun _ => trivial
    merges := fun _ member => by cases member }

theorem OwnTiles.extend {db next : Database} {merge : EchoMergeMessage}
    (tiles : OwnTiles db merge) (grown : db.Extends next) : OwnTiles next merge := by
  intro tile listed
  obtain ⟨workerId, workerListed, same⟩ := tiles tile listed
  obtain ⟨row, member, rfl⟩ := List.mem_map.mp workerListed
  obtain ⟨rowMember, rowProcessing⟩ := (mem_ofProcessing _ _ _).mp member
  obtain ⟨other, otherMember, sameWorker, sameProcessing⟩ :=
    row_of_copies (grown.copies row (Database.copies_of_mem rowMember))
  refine ⟨row.workerId, List.mem_map.mpr ⟨other, ?_, sameWorker⟩, same⟩
  exact (mem_ofProcessing _ _ _).mpr ⟨otherMember, sameProcessing.trans rowProcessing⟩

theorem workerIds_ownUpdate (db : Database) (message : EchoWorkerCallbackMessage)
    (processingId : String) :
    (ofProcessing (ownUpdate db message) processingId).map EchoWorker.workerId =
      (ofProcessing db processingId).map EchoWorker.workerId := by
  unfold ownUpdate
  split
  · rename_i row found
    have member := ((findByWorkerId_eq_some_iff _ _ _).mp found).1
    have copies : db.Copies (finished row message.imageURL) :=
      (Database.copies_of_mem member).of_assignment_eq rfl
    exact map_ofProcessing_save copies processingId _ workerId_of_assignment
  · rfl

private theorem Consistent.ownTiles {system : System} (consistent : Consistent system)
    {message : EchoWorkerCallbackMessage} (published : message ∈ system.callbackMessages)
    {scan : Scan} {merge : EchoMergeMessage}
    (decides : DecidesMerge scan (ownUpdate system.db message) message.processingId
      (some merge)) : OwnTiles system.db merge := by
  rcases decides with ⟨impossible, _⟩ | ⟨decided, same, everyDone, sameProcessing, tiles⟩
  · cases impossible
  obtain rfl : merge = decided := Option.some.inj same
  intro tile listed
  rw [tiles, List.mem_map] at listed
  obtain ⟨row, ordered, rfl⟩ := listed
  have member := (Scan.mem_order _ _ _).mp ordered
  obtain ⟨rowMember, rowProcessing⟩ := (mem_ofProcessing _ _ _).mp member
  rw [sameProcessing, ← workerIds_ownUpdate system.db message]
  refine ⟨row.workerId, List.mem_map_of_mem member, ?_⟩
  rw [← rowProcessing]
  exact tile_of_done (consistent.afterOwnUpdate published) rowMember (everyDone row member)

theorem Owned.head {system : System} (owned : Owned system) {handler : ℕ}
    {message : EchoStartMessage} {totalWorkers : ℤ} {worker : EchoWorker}
    {rest : List EchoWorker}
    (phase : system.handlers handler = .starting message totalWorkers (worker :: rest)) :
    system.db.Copies worker ∧ worker.processingId = message.processingId := by
  have owns := owned.copies handler
  rw [phase] at owns
  exact ⟨(owned.consistent.head_copies phase).1, owns worker List.mem_cons_self⟩

theorem Transition.extends {system next : System} {event : Event}
    (transition : Transition system event next) (consistent : Consistent system) :
    system.db.Extends next.db := by
  cases transition with
  | orchestratorInserted phase transform missing sameWorkers rowKey rows =>
      exact extends_of_orchestrator_append sameWorkers rows
  | workersInserted phase gridEq absent workersEq sameOrchestrators rows =>
      exact extends_of_workers_append sameOrchestrators rows
  | startCommitted phase initial =>
      exact extends_save ((consistent.head_copies phase).1.of_assignment_eq rfl)
  | callbackCommitted published found =>
      have member := ((findByWorkerId_eq_some_iff _ _ _).mp found).1
      exact extends_save ((Database.copies_of_mem member).of_assignment_eq rfl)
  | _ => exact Database.Extends.refl system.db

theorem workerMessages_of_step {system next : System} {event : Event}
    (stepped : delivery.step system event = some next) {message : EchoWorkerMessage}
    (member : message ∈ system.workerMessages) : message ∈ next.workerMessages := by
  cases step_transition stepped with
  | startCommitted phase initial => exact List.mem_append_left _ member
  | startRolledBack phase initial => exact List.mem_append_left _ member
  | _ => exact member

private theorem owns_setHandler {system : System}
    (copies : ∀ handler, (system.handlers handler).Owns)
    (handler : ℕ) {phase : Handler} (owns : phase.Owns) (other : ℕ) :
    ((system.setHandler handler phase).handlers other).Owns :=
  (Function.forall_update_iff system.handlers (fun _ current => current.Owns)).mpr
    ⟨owns, fun different _ => copies different⟩ other

private theorem Transition.owns {system next : System} {event : Event}
    (transition : Transition system event next)
    (copies : ∀ handler, (system.handlers handler).Owns) :
    ∀ handler, (next.handlers handler).Owns := by
  have remaining : ∀ {handler message totalWorkers worker rest},
      system.handlers handler = .starting message totalWorkers (worker :: rest) →
      (Handler.starting message totalWorkers rest).Owns := by
    intro handler message totalWorkers worker rest phase copy member
    have owns := copies handler
    rw [phase] at owns
    exact owns copy (List.mem_cons_of_mem worker member)
  cases transition with
  | receive idle => exact owns_setHandler copies _ trivial
  | giveUp own => exact owns_setHandler copies _ trivial
  | orchestratorFound phase transform found => exact owns_setHandler copies _ trivial
  | orchestratorInserted phase transform missing sameWorkers rowKey rows =>
      exact owns_setHandler copies _ trivial
  | workersRead phase gridEq present =>
      apply owns_setHandler copies
      intro copy member
      exact ((mem_ofProcessing _ _ _).mp ((Scan.mem_order _ _ _).mp member)).2
  | workersInserted phase gridEq absent workersEq sameOrchestrators rows =>
      apply owns_setHandler copies
      intro copy member
      exact (mem_newWorkers (workersEq ▸ member)).1
  | startSkipped phase leftInit => exact owns_setHandler copies _ (remaining phase)
  | startCommitted phase initial => exact owns_setHandler copies _ (remaining phase)
  | startRolledBack phase initial => exact owns_setHandler copies _ trivial
  | acknowledge phase => exact owns_setHandler copies _ trivial
  | work published => exact copies
  | callbackDropped published => exact copies
  | callbackCommitted published found => exact copies
  | callbackRolledBack published => exact copies

theorem merges_of_step {system next : System} {event : Event} (consistent : Consistent system)
    (stepped : delivery.step system event = some next) :
    ∃ added, next.mergeMessages = system.mergeMessages ++ added ∧
      ∀ merge ∈ added, OwnTiles system.db merge := by
  cases event with
  | callback message scan outcome =>
      obtain ⟨published, merge, decides, rfl⟩ := callback_step consistent stepped
      refine ⟨merge.toList, rfl, ?_⟩
      intro listedMerge listed
      obtain rfl : merge = some listedMerge := Option.mem_toList.mp listed
      exact consistent.ownTiles published decides
  | _ =>
      refine ⟨[], ?_, fun _ impossible => by cases impossible⟩
      rw [List.append_nil]
      cases step_transition stepped <;> rfl

theorem owned_step {system next : System} {event : Event} (owned : Owned system)
    (stepped : delivery.step system event = some next) : Owned next := by
  have transition := step_transition stepped
  have grown := transition.extends owned.consistent
  refine
    { consistent := transition.consistent owned.consistent
      copies := transition.owns owned.copies
      merges := ?_ }
  obtain ⟨added, merges, addedOwn⟩ := merges_of_step owned.consistent stepped
  intro merge member
  rw [merges] at member
  rcases List.mem_append.mp member with earlier | new
  · exact (owned.merges merge earlier).extend grown
  · exact (addedOwn merge new).extend grown

end EchoProcessing.Orchestrator
