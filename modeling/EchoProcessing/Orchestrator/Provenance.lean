/-
What the published messages were made from.

A worker message repeats the columns that its row was inserted with, a row has the image
of its request, and a merge lists one tile for each row of its processing. All of this
holds for messages whose transaction was rolled back as well.
-/

import EchoProcessing.Orchestrator.Pending
import EchoProcessing.Orchestrator.Resume

namespace EchoProcessing.Orchestrator

open EchoWorkerRepository EchoWorkerService

private theorem imageURL_of_assignment {left right : EchoWorker}
    (same : left.assignment = right.assignment) : left.imageURL = right.imageURL := by
  have column := congrArg EchoWorker.imageURL same
  exact column

private theorem imageURL_of_mem_newWorkers {processingId imageURL : String} {uuid : ℕ → String}
    {grid : Grid} {row : EchoWorker} (member : row ∈ newWorkers processingId imageURL uuid grid) :
    row.imageURL = imageURL := by
  rw [newWorkers, List.mem_mapIdx] at member
  obtain ⟨index, bound, rfl⟩ := member
  rfl

/-- The image of the row is the one of the request of its processing. -/
def FromRequest (requests : List EchoStartMessage) (row : EchoWorker) : Prop :=
  ∃ message ∈ requests, message.processingId = row.processingId ∧ message.imageURL = row.imageURL

/-- The message tells a worker to render the cell of a committed row. -/
def Announced (db : Database) (published : EchoWorkerMessage) : Prop :=
  ∃ row ∈ db.workers.rows, Carries published row

/-- The merge has one tile for each row of its processing, which has some. -/
def Complete (db : Database) (merge : EchoMergeMessage) : Prop :=
  ofProcessing db merge.processingId ≠ [] ∧ MergedIn db merge.processingId merge

def CalledBack (system : System) (tile : Option String) : Prop :=
  ∃ callback ∈ system.callbackMessages, tile = some callback.imageURL

structure Traced (requests : List EchoStartMessage) (system : System) : Prop where
  rows : ∀ row ∈ system.db.workers.rows, FromRequest requests row
  announced : ∀ published ∈ system.workerMessages, Announced system.db published
  complete : ∀ merge ∈ system.mergeMessages, Complete system.db merge
  calledBack : ∀ merge ∈ system.mergeMessages, ∀ tile ∈ merge.tileURLs, CalledBack system tile

theorem traced_initial : Traced [] (System.initial Database.empty) :=
  { rows := fun _ member => by cases member
    announced := fun _ member => by cases member
    complete := fun _ member => by cases member
    calledBack := fun _ member => by cases member }

theorem Traced.request {requests : List EchoStartMessage} {system : System}
    (traced : Traced requests system) (message : EchoStartMessage) :
    Traced (requests ++ [message]) system :=
  { traced with
    rows := by
      intro row member
      obtain ⟨earlier, requested, facts⟩ := traced.rows row member
      exact ⟨earlier, List.mem_append_left _ requested, facts⟩ }

theorem FromRequest.of_assignment {requests : List EchoStartMessage} {row other : EchoWorker}
    (own : FromRequest requests row) (same : row.assignment = other.assignment) :
    FromRequest requests other := by
  obtain ⟨message, requested, processing, image⟩ := own
  exact ⟨message, requested, processing.trans (processingId_of_assignment same),
    image.trans (imageURL_of_assignment same)⟩

theorem Announced.extend {db next : Database} {published : EchoWorkerMessage}
    (announced : Announced db published) (grown : db.Extends next) : Announced next published := by
  obtain ⟨row, member, carries⟩ := announced
  obtain ⟨other, otherMember, same⟩ := grown.copies row (Database.copies_of_mem member)
  exact ⟨other, otherMember, carries.of_assignment same.symm⟩

theorem Complete.of_workerIds {db next : Database} {merge : EchoMergeMessage}
    (complete : Complete db merge)
    (same : (ofProcessing next merge.processingId).map EchoWorker.workerId =
      (ofProcessing db merge.processingId).map EchoWorker.workerId) : Complete next merge := by
  obtain ⟨present, own, tiles⟩ := complete
  have tilesOf : ∀ rows : List EchoWorker,
      rows.map (fun row => some (Image.tileURL merge.processingId row.workerId)) =
        (rows.map EchoWorker.workerId).map
          (fun workerId => some (Image.tileURL merge.processingId workerId)) := by
    intro rows
    rw [List.map_map]
    rfl
  refine ⟨?_, own, ?_⟩
  · intro empty
    rw [empty, List.map_nil] at same
    exact present (List.map_eq_nil_iff.mp same.symm)
  · rw [tilesOf, same, ← tilesOf]
    exact tiles

section Step

variable {requests : List EchoStartMessage} {system next : System}

theorem Traced.setDatabase (traced : Traced requests system) (grown : system.db.Extends next.db)
    (rows : ∀ row ∈ next.db.workers.rows, FromRequest requests row)
    (workerIds : ∀ processingId, ofProcessing system.db processingId ≠ [] →
      (ofProcessing next.db processingId).map EchoWorker.workerId =
        (ofProcessing system.db processingId).map EchoWorker.workerId)
    (workers : next.workerMessages = system.workerMessages)
    (callbacks : next.callbackMessages = system.callbackMessages)
    (merges : next.mergeMessages = system.mergeMessages) : Traced requests next :=
  { rows := rows
    announced := by
      rw [workers]
      exact fun published member => (traced.announced published member).extend grown
    complete := by
      rw [merges]
      intro merge member
      have complete := traced.complete merge member
      exact complete.of_workerIds (workerIds _ complete.1)
    calledBack := by
      unfold CalledBack
      rw [merges, callbacks]
      exact traced.calledBack }

theorem Traced.saveCopy (traced : Traced requests system) {copy : EchoWorker}
    (copies : system.db.Copies copy) :
    Traced requests { system with db := save system.db copy } := by
  have grown : system.db.Extends (save system.db copy) := extends_save copies
  refine traced.setDatabase grown ?_ ?_ rfl rfl rfl
  · intro row member
    obtain ⟨old, oldMember, same⟩ :=
      (copies_save_iff copies row).mp (Database.copies_of_mem member)
    exact (traced.rows old oldMember).of_assignment same
  · intro processingId _
    exact map_ofProcessing_save copies processingId _ workerId_of_assignment

theorem Traced.announce (traced : Traced requests system) {worker : EchoWorker}
    (copies : system.db.Copies worker) (totalWorkers : ℤ) :
    Traced requests { system with
      workerMessages := system.workerMessages ++ [workerMessage worker totalWorkers] } :=
  { traced with
    announced := by
      intro published member
      rcases List.mem_append.mp member with earlier | new
      · exact traced.announced published earlier
      · obtain ⟨row, rowMember, same⟩ := copies
        rw [List.mem_singleton.mp new]
        exact ⟨row, rowMember,
          (carries_workerMessage worker totalWorkers).of_assignment same.symm⟩ }

theorem Traced.ownUpdate (traced : Traced requests system) (consistent : Consistent system)
    {message : EchoWorkerCallbackMessage} (published : message ∈ system.callbackMessages)
    (outcome : Outcome) :
    Traced requests { system with
      db := outcome.database system.db (ownUpdate system.db message) } := by
  cases outcome with
  | rolledBack => exact traced
  | committed =>
      obtain ⟨row, found, _⟩ := consistent.row_of_callback published
      have member := ((findByWorkerId_eq_some_iff _ _ _).mp found).1
      have copies : system.db.Copies (finished row message.imageURL) :=
        (Database.copies_of_mem member).of_assignment_eq rfl
      have saved := traced.saveCopy copies
      unfold Outcome.database Orchestrator.ownUpdate
      rw [found]
      exact saved

theorem Traced.callback (traced : Traced requests system) (consistent : Consistent system)
    {message : EchoWorkerCallbackMessage} {scan : Scan} {outcome : Outcome}
    (stepped : delivery.step system (.callback message scan outcome) = some next) :
    Traced requests next := by
  obtain ⟨published, merge, decides, rfl⟩ := callback_step consistent stepped
  have updated := traced.ownUpdate consistent published outcome
  have after := consistent.afterOwnUpdate published
  have decided : ∀ added ∈ merge.toList,
      (∀ row ∈ ofProcessing (Orchestrator.ownUpdate system.db message) message.processingId,
        row.state = .done) ∧ added.processingId = message.processingId ∧
      added.tileURLs = (scan.order (ofProcessing (Orchestrator.ownUpdate system.db message)
        message.processingId)).map EchoWorker.tileURL := by
    intro added member
    rcases decides with ⟨rfl, _⟩ | ⟨_, rfl, everyDone, own, tiles⟩
    · cases member
    · rw [List.mem_singleton.mp member]
      exact ⟨everyDone, own, tiles⟩
  refine
    { rows := updated.rows
      announced := updated.announced
      complete := ?_
      calledBack := ?_ }
  · intro added member
    rcases List.mem_append.mp member with earlier | new
    · exact updated.complete added earlier
    · obtain ⟨everyDone, own, tiles⟩ := decided added new
      have complete : Complete (Orchestrator.ownUpdate system.db message) added := by
        unfold Complete
        rw [own]
        exact ⟨ofProcessing_ownUpdate_ne_nil consistent published,
          mergedIn_of_done after everyDone own tiles⟩
      apply complete.of_workerIds
      cases outcome with
      | committed => rfl
      | rolledBack => exact (workerIds_ownUpdate _ _ _).symm
  · intro added member tile listed
    rcases List.mem_append.mp member with earlier | new
    · exact traced.calledBack added earlier tile listed
    · obtain ⟨everyDone, _, tiles⟩ := decided added new
      rw [tiles] at listed
      obtain ⟨row, ordered, rfl⟩ := List.mem_map.mp listed
      have rowMember := (scan.perm _).mem_iff.mp ordered
      obtain ⟨callback, delivered, _, _, own⟩ :=
        after.done row ((mem_ofProcessing _ _ _).mp rowMember).1 (everyDone row rowMember)
      exact ⟨callback, after.delivered callback delivered, own⟩

theorem Transition.traced {event : Event} (transition : Transition system event next)
    (owned : Owned system) (counted : Counted requests system)
    (stepped : delivery.step system event = some next) (traced : Traced requests system) :
    Traced requests next := by
  have grown := transition.extends owned.consistent
  cases transition with
  | orchestratorInserted phase transform missing sameWorkers rowKey rows =>
      refine traced.setDatabase grown ?_ ?_ rfl rfl rfl
      · intro row member
        exact traced.rows row (sameWorkers ▸ member)
      · intro processingId _
        exact congrArg (List.map EchoWorker.workerId)
          (ofProcessing_of_workers_eq sameWorkers processingId)
  | @workersInserted handler strategy uuid message geoTransform database scan grid workers phase
      gridEq absent workersEq sameOrchestrators rows =>
      subst workersEq
      refine traced.setDatabase grown ?_ ?_ rfl rfl rfl
      · intro row member
        rcases List.mem_append.mp (rows ▸ member) with old | new
        · exact traced.rows row old
        · exact ⟨message, (counted.facts phase).1, (mem_newWorkers new).1.symm,
            (imageURL_of_mem_newWorkers new).symm⟩
      · intro processingId present
        have others : ofProcessing database processingId =
            ofProcessing system.db processingId := by
          apply ofProcessing_append_other rows
          rintro row new rfl
          rw [(mem_newWorkers new).1] at present
          exact present absent
        change (ofProcessing database processingId).map _ = _
        rw [others]
  | startCommitted phase initial =>
      have copies := (owned.head phase).1
      have saved : system.db.Copies (started _) := copies.of_assignment_eq rfl
      exact { (traced.announce copies _).saveCopy saved with }
  | startRolledBack phase initial => exact { traced.announce (owned.head phase).1 _ with }
  | work published =>
      exact
        { traced with
          calledBack := by
            intro merge member tile listed
            obtain ⟨callback, earlier, own⟩ := traced.calledBack merge member tile listed
            exact ⟨callback, List.mem_append_left _ earlier, own⟩ }
  | callbackDropped published => exact traced.callback owned.consistent stepped
  | callbackCommitted published found => exact traced.callback owned.consistent stepped
  | callbackRolledBack published => exact traced.callback owned.consistent stepped
  | _ => exact { traced with }

end Step

end EchoProcessing.Orchestrator
