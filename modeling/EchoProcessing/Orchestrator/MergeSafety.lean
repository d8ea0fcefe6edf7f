/-
No premature and no incomplete merge.

A delivery decides on the merge in the database in which its own row is already
done, whether or not its transaction commits afterwards. In a reachable state that
row exists and belongs to the processing of the message, so the decision is taken
over all rows of the processing, and every one of them carries a reported tile.
-/

import EchoProcessing.Orchestrator.Consistency

namespace EchoProcessing.Orchestrator

open EchoWorkerRepository EchoWorkerService

/-- The database that a callback transaction sees after its own update. -/
def ownUpdate (db : Database) (message : EchoWorkerCallbackMessage) : Database :=
  match findByWorkerId db message.workerId with
  | some row => save db (finished row message.imageURL)
  | none => db

/-- One entry for each worker row, each the tile reported for that row. -/
structure CompleteMerge (db : Database) (delivered : List EchoWorkerCallbackMessage)
    (processingId : String) (merge : EchoMergeMessage) : Prop where
  processingId_eq : merge.processingId = processingId
  everyWorkerReported : ∀ row ∈ ofProcessing db processingId, ∃ message ∈ delivered,
    message.processingId = processingId ∧ message.workerId = row.workerId
  tileIsReported : ∀ row ∈ ofProcessing db processingId, ∀ message ∈ delivered,
    message.processingId = processingId → message.workerId = row.workerId →
      row.tileURL = some message.imageURL
  onePerRow : merge.tileURLs.Perm ((ofProcessing db processingId).map EchoWorker.tileURL)
  noneTwice : merge.tileURLs.Nodup
  noneMissing : none ∉ merge.tileURLs

theorem Consistent.afterOwnUpdate {system : System} (consistent : Consistent system)
    {message : EchoWorkerCallbackMessage} (published : message ∈ system.callbackMessages) :
    Consistent { system with
      db := ownUpdate system.db message
      delivered := system.delivered ++ [message] } := by
  obtain ⟨row, found, sameProcessing⟩ := consistent.row_of_callback published
  unfold ownUpdate
  rw [found]
  exact (consistent.deliver published).saveFinished found sameProcessing
    (List.mem_append_right _ (List.mem_singleton_self message))

theorem ofProcessing_ownUpdate_ne_nil {system : System} (consistent : Consistent system)
    {message : EchoWorkerCallbackMessage} (published : message ∈ system.callbackMessages) :
    ofProcessing (ownUpdate system.db message) message.processingId ≠ [] := by
  obtain ⟨row, found, sameProcessing⟩ :=
    (consistent.afterOwnUpdate published).row_of_callback published
  obtain ⟨member, _⟩ := (findByWorkerId_eq_some_iff _ _ _).mp found
  exact List.ne_nil_of_mem ((mem_ofProcessing _ _ _).mpr ⟨member, sameProcessing⟩)

theorem ofProcessing_ownUpdate_of_ne {system : System} (consistent : Consistent system)
    {message : EchoWorkerCallbackMessage} (published : message ∈ system.callbackMessages)
    {processingId : String} (other : message.processingId ≠ processingId) :
    ofProcessing (ownUpdate system.db message) processingId =
      ofProcessing system.db processingId := by
  obtain ⟨row, found, sameProcessing⟩ := consistent.row_of_callback published
  have member := ((findByWorkerId_eq_some_iff _ _ _).mp found).1
  have copies : system.db.Copies (finished row message.imageURL) :=
    (Database.copies_of_mem member).of_assignment_eq rfl
  unfold ownUpdate
  rw [found]
  exact ofProcessing_save_of_ne copies (fun same => other (sameProcessing.symm.trans same))

/-- What a callback transaction decides from the rows it sees. -/
def DecidesMerge (scan : Scan) (db : Database) (processingId : String)
    (published : Option EchoMergeMessage) : Prop :=
  (published = none ∧ ¬∀ row ∈ ofProcessing db processingId, row.state = .done) ∨
    ∃ merge, published = some merge ∧
      (∀ row ∈ ofProcessing db processingId, row.state = .done) ∧
      merge.processingId = processingId ∧
      merge.tileURLs = (scan.order (ofProcessing db processingId)).map EchoWorker.tileURL

private theorem DecidesMerge.isSome_iff {scan : Scan} {db : Database} {processingId : String}
    {published : Option EchoMergeMessage} (decides : DecidesMerge scan db processingId published) :
    published.isSome = true ↔ ∀ row ∈ ofProcessing db processingId, row.state = .done := by
  rcases decides with ⟨rfl, incomplete⟩ | ⟨merge, rfl, everyDone, _, _⟩
  · simpa using incomplete
  · simpa using everyDone

/-- In a reachable state a callback returns: its row is found, and the exception for
a missing orchestrator row is never thrown. -/
theorem callback_outcome {system : System} (consistent : Consistent system)
    {message : EchoWorkerCallbackMessage} (published : message ∈ system.callbackMessages)
    (scan : Scan) :
    ∃ merge, callbackEchoWorker scan system.db message.processingId message.workerId
        message.imageURL = .ok (ownUpdate system.db message, merge) ∧
      DecidesMerge scan (ownUpdate system.db message) message.processingId merge := by
  obtain ⟨row, found, sameProcessing⟩ := consistent.row_of_callback published
  have after := consistent.afterOwnUpdate published
  have nonempty := ofProcessing_ownUpdate_ne_nil consistent published
  have updateEq : ownUpdate system.db message =
      save system.db (finished row message.imageURL) := by
    unfold ownUpdate
    rw [found]
  rw [callbackEchoWorker_of_found scan message.processingId message.imageURL found, ← updateEq]
  cases complete : allDone (ownUpdate system.db message) message.processingId with
  | false =>
      refine ⟨none, rfl, Or.inl ⟨rfl, fun everyDone => ?_⟩⟩
      have decided := (allDone_eq_true_iff _ _).mpr ⟨nonempty, everyDone⟩
      rw [complete] at decided
      cases decided
  | true =>
      have everyDone := ((allDone_eq_true_iff _ _).mp complete).2
      obtain ⟨first, firstMember⟩ := List.exists_mem_of_ne_nil _ nonempty
      obtain ⟨firstRow, firstProcessing⟩ := (mem_ofProcessing _ _ _).mp firstMember
      obtain ⟨orchestrator, orchestratorFound⟩ := after.orchestrator first firstRow
      rw [firstProcessing] at orchestratorFound
      cases merged : publishMerge scan (ownUpdate system.db message) message.processingId
          (finished row message.imageURL) with
      | error failure =>
          unfold publishMerge at merged
          rw [orchestratorFound] at merged
          cases merged
      | ok merge =>
          obtain ⟨mergeProcessing, tiles⟩ := publishMerge_ok merged
          exact ⟨some merge, rfl,
            Or.inr ⟨merge, rfl, everyDone, mergeProcessing.trans sameProcessing, tiles⟩⟩

def Outcome.database (outcome : Outcome) (before updated : Database) : Database :=
  match outcome with
  | .committed => updated
  | .rolledBack => before

theorem callback_step {system next : System} (consistent : Consistent system)
    {message : EchoWorkerCallbackMessage} {scan : Scan} {outcome : Outcome}
    (stepped : delivery.step system (.callback message scan outcome) = some next) :
    message ∈ system.callbackMessages ∧
      ∃ merge, DecidesMerge scan (ownUpdate system.db message) message.processingId merge ∧
        next =
          { system with
            db := outcome.database system.db (ownUpdate system.db message)
            delivered := system.delivered ++ [message]
            mergeMessages := system.mergeMessages ++ merge.toList } := by
  change system.callback message scan outcome = some next at stepped
  unfold System.callback at stepped
  split at stepped
  · rename_i published
    obtain ⟨merge, returned, decides⟩ := callback_outcome consistent published scan
    rw [returned] at stepped
    refine ⟨published, merge, decides, ?_⟩
    cases outcome <;> cases stepped <;> rfl
  · cases stepped

theorem tile_of_done {system : System} (consistent : Consistent system) {row : EchoWorker}
    (member : row ∈ system.db.workers.rows) (isDone : row.state = .done) :
    row.tileURL = some (Image.tileURL row.processingId row.workerId) := by
  obtain ⟨message, delivered, sameWorker, sameProcessing, tile⟩ :=
    consistent.done row member isDone
  rw [tile, consistent.imageURL_of_callback (consistent.delivered message delivered),
    sameWorker, sameProcessing]

private theorem completeMerge_of_done {system : System} (consistent : Consistent system)
    {processingId : String} {merge : EchoMergeMessage} {scan : Scan}
    (everyDone : ∀ row ∈ ofProcessing system.db processingId, row.state = .done)
    (sameProcessing : merge.processingId = processingId)
    (tiles : merge.tileURLs =
      (scan.order (ofProcessing system.db processingId)).map EchoWorker.tileURL) :
    CompleteMerge system.db system.delivered processingId merge := by
  have rowFacts : ∀ row ∈ ofProcessing system.db processingId,
      row ∈ system.db.workers.rows ∧ row.processingId = processingId :=
    fun row member => (mem_ofProcessing _ _ _).mp member
  have tileEq : ∀ row ∈ ofProcessing system.db processingId,
      row.tileURL = some (Image.tileURL processingId row.workerId) := by
    intro row member
    obtain ⟨rowMember, rowProcessing⟩ := rowFacts row member
    rw [tile_of_done consistent rowMember (everyDone row member), rowProcessing]
  have perm : merge.tileURLs.Perm
      ((ofProcessing system.db processingId).map EchoWorker.tileURL) :=
    tiles ▸ (scan.perm _).map _
  refine ⟨sameProcessing, ?_, ?_, perm, ?_, ?_⟩
  · intro row member
    obtain ⟨rowMember, rowProcessing⟩ := rowFacts row member
    obtain ⟨message, delivered, sameWorker, messageProcessing, _⟩ :=
      consistent.done row rowMember (everyDone row member)
    exact ⟨message, delivered, messageProcessing.trans rowProcessing, sameWorker⟩
  · intro row member message delivered messageProcessing sameWorker
    rw [tileEq row member,
      consistent.imageURL_of_callback (consistent.delivered message delivered),
      messageProcessing, sameWorker]
  · rw [perm.nodup_iff]
    apply List.Nodup.map_on _ (List.Nodup.filter _ (List.Nodup.of_map _ system.db.workers.unique))
    intro left leftMember right rightMember same
    rw [tileEq left leftMember, tileEq right rightMember] at same
    exact system.db.workers.eq_of_key_eq (rowFacts left leftMember).1 (rowFacts right rightMember).1
      (Image.tileURL_injective processingId (Option.some.inj same))
  · rw [perm.mem_iff, List.mem_map]
    rintro ⟨row, member, missing⟩
    rw [tileEq row member] at missing
    cases missing

/-- A merge is published exactly when every worker is done after the delivery's own
update, and it then holds one reported tile for each worker row. -/
theorem merge_published_iff_every_worker_done {events : List Event} {system next : System}
    {message : EchoWorkerCallbackMessage} {scan : Scan} {outcome : Outcome}
    (reached : delivery.Runs (System.initial Database.empty) events system)
    (delivers : delivery.step system (.callback message scan outcome) = some next) :
    ∃ published : Option EchoMergeMessage,
      next.mergeMessages = system.mergeMessages ++ published.toList ∧
      (published.isSome = true ↔
        ∀ row ∈ ofProcessing (ownUpdate system.db message) message.processingId,
          row.state = .done) ∧
      ∀ merge, published = some merge →
        CompleteMerge (ownUpdate system.db message) next.delivered message.processingId merge := by
  have consistent := consistent_of_runs reached
  obtain ⟨published, merge, decides, rfl⟩ := callback_step consistent delivers
  refine ⟨merge, rfl, decides.isSome_iff, ?_⟩
  rintro message rfl
  rcases decides with ⟨impossible, _⟩ | ⟨merge, same, everyDone, sameProcessing, tiles⟩
  · cases impossible
  · cases same
    exact completeMerge_of_done (consistent.afterOwnUpdate published) everyDone sameProcessing
      tiles

theorem merge_published_iff_every_worker_done_two_tiles :
    ∃ next merge, delivery.step Sample.lastReport Sample.rightDelivered = some next ∧
      next.mergeMessages = [merge] ∧
      merge.tileURLs = [some (Image.tileURL "p" "v"), some (Image.tileURL "p" "w")] ∧
      CompleteMerge (ownUpdate Sample.lastReport.db Sample.rightMessage.callback) next.delivered
        "p" merge := by
  have observed : (delivery.step Sample.lastReport Sample.rightDelivered).map
      (fun next => next.mergeMessages.map EchoMergeMessage.tileURLs) =
        some [[some (Image.tileURL "p" "v"), some (Image.tileURL "p" "w")]] := by
    decide +kernel
  obtain ⟨next, delivers, tiles⟩ := Option.map_eq_some_iff.mp observed
  obtain ⟨published, merges, _, complete⟩ :=
    merge_published_iff_every_worker_done Sample.runs_lastReport delivers
  have before : Sample.lastReport.mergeMessages = [] := by decide +kernel
  rw [before, List.nil_append] at merges
  rw [merges] at tiles
  cases published with
  | none => cases tiles
  | some merge => exact ⟨next, merge, delivers, merges, (List.cons.inj tiles).1, complete merge rfl⟩

end EchoProcessing.Orchestrator
