/-
What is left to do for a processing.

A row in INIT is one that a delivery of the start message still has to start, and the
handler of a delivery that goes on holds a copy of each. A processing whose rows are all
done has been merged: the transaction that finished its last row has published for it.
-/

import EchoProcessing.Orchestrator.Totals

namespace EchoProcessing.Orchestrator

open EchoWorkerRepository EchoWorkerService

/-- No row of a processing that has rows comes or goes back to INIT. -/
def Database.KeepsStarted (db next : Database) : Prop :=
  ∀ processingId, ofProcessing db processingId ≠ [] →
    ∀ row ∈ ofProcessing next processingId, row.state = .init → row ∈ ofProcessing db processingId

theorem Database.KeepsStarted.refl (db : Database) : db.KeepsStarted db :=
  fun _ _ _ member _ => member

private theorem keepsStarted_save {db : Database} {copy : EchoWorker} (copies : db.Copies copy)
    (saved : copy.state ≠ .init) : db.KeepsStarted (save db copy) := by
  intro processingId _ row member initial
  rcases mem_ofProcessing_save copies member with ⟨old, _⟩ | same
  · exact old
  · rw [same] at initial
    exact absurd initial saved

private theorem keepsStarted_insert {db next : Database} {processingId : String}
    {workers : List EchoWorker} (absent : ofProcessing db processingId = [])
    (own : ∀ row ∈ workers, row.processingId = processingId)
    (rows : next.workers.rows = db.workers.rows ++ workers) : db.KeepsStarted next := by
  intro other present row member _
  have different : ∀ row ∈ workers, row.processingId ≠ other := by
    intro worker workerMember same
    apply present
    rw [← same, own worker workerMember, absent]
  rw [ofProcessing_append_other rows different] at member
  exact member

private theorem keepsStarted_of_workers_eq {db next : Database} (same : next.workers = db.workers) :
    db.KeepsStarted next := by
  intro processingId _ row member _
  rw [ofProcessing_of_workers_eq same] at member
  exact member

theorem Transition.keepsStarted {system next : System} {event : Event}
    (transition : Transition system event next) (consistent : Consistent system) :
    system.db.KeepsStarted next.db := by
  cases transition with
  | orchestratorInserted phase transform missing sameWorkers rowKey rows =>
      exact keepsStarted_of_workers_eq sameWorkers
  | workersInserted phase gridEq absent workersEq sameOrchestrators rows =>
      exact keepsStarted_insert absent
        (fun row member => (mem_newWorkers (workersEq ▸ member)).1) rows
  | @startCommitted handler strategy message totalWorkers worker rest phase initial =>
      have copies : system.db.Copies (started worker) :=
        (consistent.head_copies phase).1.of_assignment_eq rfl
      exact keepsStarted_save copies nofun
  | @callbackCommitted message scan row merge published found =>
      have member := ((findByWorkerId_eq_some_iff _ _ _).mp found).1
      have copies : system.db.Copies (finished row message.imageURL) :=
        (Database.copies_of_mem member).of_assignment_eq rfl
      exact keepsStarted_save copies nofun
  | _ => exact Database.KeepsStarted.refl system.db

/-- Each row that is still to be started has its copy in the list of the handler. -/
def Handler.Remaining (db : Database) : Handler → Prop
  | .starting message _ workers => ∀ row ∈ ofProcessing db message.processingId,
      row.state = .init → ∃ copy ∈ workers, copy.workerId = row.workerId ∧ copy.state = .init
  | _ => True

theorem Handler.Remaining.keep {requests : List EchoStartMessage} {db next : Database}
    {phase : Handler} (remaining : phase.Remaining db) (counted : phase.Counted requests db)
    (kept : db.KeepsStarted next) : phase.Remaining next := by
  cases phase with
  | starting message totalWorkers workers =>
      intro row member initial
      exact remaining row (kept _ counted.2.1.ne_nil row member initial) initial
  | _ => trivial

private theorem remaining_of_perm {db : Database} {message : EchoStartMessage} {totalWorkers : ℤ}
    {workers : List EchoWorker} (perm : workers.Perm (ofProcessing db message.processingId)) :
    (Handler.starting message totalWorkers workers).Remaining db :=
  fun row member initial => ⟨row, perm.mem_iff.mpr member, rfl, initial⟩

theorem Handler.Remaining.advance {db : Database} {message : EchoStartMessage}
    {totalWorkers : ℤ} {worker : EchoWorker} {rest : List EchoWorker}
    (remaining : (Handler.starting message totalWorkers (worker :: rest)).Remaining db)
    (done : ∀ row ∈ ofProcessing db message.processingId, row.state = .init →
      worker.workerId = row.workerId → worker.state ≠ .init) :
    (Handler.starting message totalWorkers rest).Remaining db := by
  intro row member initial
  obtain ⟨copy, copyMember, same, copyInitial⟩ := remaining row member initial
  rcases List.mem_cons.mp copyMember with rfl | inRest
  · exact absurd copyInitial (done row member initial same)
  · exact ⟨copy, inRest, same, copyInitial⟩

theorem Handler.Remaining.saveHead {db : Database} {message : EchoStartMessage}
    {totalWorkers : ℤ} {worker : EchoWorker} {rest : List EchoWorker}
    (remaining : (Handler.starting message totalWorkers (worker :: rest)).Remaining db)
    (copies : db.Copies worker) :
    (Handler.starting message totalWorkers rest).Remaining (save db (started worker)) := by
  have saved : db.Copies (started worker) := copies.of_assignment_eq rfl
  intro row member initial
  rcases mem_ofProcessing_save saved member with ⟨old, different⟩ | same
  · obtain ⟨copy, copyMember, sameWorker, copyInitial⟩ := remaining row old initial
    rcases List.mem_cons.mp copyMember with rfl | inRest
    · exact absurd sameWorker.symm different
    · exact ⟨copy, inRest, sameWorker, copyInitial⟩
  · rw [same] at initial
    cases initial

theorem Transition.remaining {requests : List EchoStartMessage} {system next : System}
    {event : Event} (transition : Transition system event next) (owned : Owned system)
    (counted : Counted requests system)
    (handlers : ∀ handler, (system.handlers handler).Remaining system.db) :
    ∀ handler, (next.handlers handler).Remaining next.db := by
  have kept := transition.keepsStarted owned.consistent
  have others : ∀ handler, (system.handlers handler).Remaining next.db :=
    fun handler => (handlers handler).keep (counted.handlers handler) kept
  have set : ∀ handler {phase : Handler}, phase.Remaining next.db →
      ∀ other, (Function.update system.handlers handler phase other).Remaining next.db :=
    fun handler _ own => (Function.forall_update_iff system.handlers
      (fun _ phase => phase.Remaining next.db)).mpr ⟨own, fun other _ => others other⟩
  have busy : ∀ {handler phase}, system.handlers handler = phase → phase.Remaining system.db :=
    fun found => found ▸ handlers _
  cases transition with
  | receive idle => exact set _ trivial
  | giveUp own => exact set _ trivial
  | orchestratorFound phase transform found => exact set _ trivial
  | orchestratorInserted phase transform missing sameWorkers rowKey rows => exact set _ trivial
  | workersRead phase gridEq present => exact set _ (remaining_of_perm (Scan.perm _ _))
  | @workersInserted handler strategy uuid message geoTransform database scan grid workers phase
      gridEq absent workersEq sameOrchestrators rows =>
      have own : ∀ row ∈ workers, row.processingId = message.processingId :=
        fun row member => (mem_newWorkers (workersEq ▸ member)).1
      have all := ofProcessing_append rows own
      rw [absent, List.nil_append] at all
      exact set _ (remaining_of_perm (List.Perm.of_eq all.symm))
  | startSkipped phase leftInit =>
      exact set _ ((busy phase).advance (fun _ _ _ _ => leftInit))
  | startCommitted phase initial => exact set _ ((busy phase).saveHead (owned.head phase).1)
  | startRolledBack phase initial => exact set _ trivial
  | acknowledge phase => exact set _ trivial
  | work published => exact others
  | callbackDropped published => exact others
  | callbackCommitted published found => exact others
  | callbackRolledBack published => exact others

theorem noneInitial_of_remaining {db : Database} {message : EchoStartMessage}
    {totalWorkers : ℤ} (remaining : (Handler.starting message totalWorkers []).Remaining db) :
    ∀ row ∈ ofProcessing db message.processingId, row.state ≠ .init := by
  intro row member initial
  obtain ⟨copy, impossible, _⟩ := remaining row member initial
  cases impossible

/-- A merge of the processing with one tile for each of its rows. -/
def MergedIn (db : Database) (processingId : String) (merge : EchoMergeMessage) : Prop :=
  merge.processingId = processingId ∧
    merge.tileURLs.Perm ((ofProcessing db processingId).map
      (fun row => some (Image.tileURL processingId row.workerId)))

/-- A processing whose rows are all done has a published merge. -/
def Merged (system : System) : Prop :=
  ∀ processingId, ofProcessing system.db processingId ≠ [] →
    (∀ row ∈ ofProcessing system.db processingId, row.state = .done) →
    ∃ merge ∈ system.mergeMessages, MergedIn system.db processingId merge

theorem MergedIn.of_same_rows {db next : Database} {processingId : String}
    {merge : EchoMergeMessage} (merged : MergedIn db processingId merge)
    (same : ofProcessing next processingId = ofProcessing db processingId) :
    MergedIn next processingId merge := by
  unfold MergedIn
  rw [same]
  exact merged

theorem Merged.step {system next : System} (merged : Merged system)
    (kept : ∀ merge ∈ system.mergeMessages, merge ∈ next.mergeMessages)
    (same : ∀ processingId,
      ofProcessing next.db processingId = ofProcessing system.db processingId ∨
      ∃ row ∈ ofProcessing next.db processingId, row.state ≠ .done) : Merged next := by
  intro processingId present everyDone
  rcases same processingId with rows | ⟨row, member, unfinished⟩
  · rw [rows] at present everyDone
    obtain ⟨merge, member, facts⟩ := merged processingId present everyDone
    exact ⟨merge, kept merge member, facts.of_same_rows rows⟩
  · exact absurd (everyDone row member) unfinished

theorem mergedIn_of_tiles {db : Database} {processingId : String} {merge : EchoMergeMessage}
    {scan : Scan}
    (own : ∀ row ∈ ofProcessing db processingId,
      row.tileURL = some (Image.tileURL processingId row.workerId))
    (sameProcessing : merge.processingId = processingId)
    (tiles : merge.tileURLs = (scan.order (ofProcessing db processingId)).map EchoWorker.tileURL) :
    MergedIn db processingId merge := by
  refine ⟨sameProcessing, ?_⟩
  rw [tiles]
  exact ((scan.perm _).map _).trans (List.Perm.of_eq (List.map_congr_left own))

theorem mergedIn_of_done {system : System} (consistent : Consistent system)
    {processingId : String} {merge : EchoMergeMessage} {scan : Scan}
    (everyDone : ∀ row ∈ ofProcessing system.db processingId, row.state = .done)
    (sameProcessing : merge.processingId = processingId)
    (tiles : merge.tileURLs =
      (scan.order (ofProcessing system.db processingId)).map EchoWorker.tileURL) :
    MergedIn system.db processingId merge := by
  apply mergedIn_of_tiles ?_ sameProcessing tiles
  intro row member
  obtain ⟨rowMember, rowProcessing⟩ := (mem_ofProcessing _ _ _).mp member
  rw [tile_of_done consistent rowMember (everyDone row member), rowProcessing]

/-- The callback that finishes the last row publishes, whether or not it is committed. -/
theorem Merged.callback {system next : System} (merged : Merged system)
    (consistent : Consistent system) {message : EchoWorkerCallbackMessage} {scan : Scan}
    {outcome : Outcome}
    (stepped : delivery.step system (.callback message scan outcome) = some next) :
    Merged next := by
  obtain ⟨published, merge, decides, rfl⟩ := callback_step consistent stepped
  have kept : ∀ earlier ∈ system.mergeMessages,
      earlier ∈ system.mergeMessages ++ merge.toList :=
    fun _ member => List.mem_append_left _ member
  cases outcome with
  | rolledBack => exact merged.step kept (fun _ => Or.inl rfl)
  | committed =>
      intro processingId present everyDone
      by_cases own : message.processingId = processingId
      · subst own
        rcases decides with ⟨_, incomplete⟩ | ⟨decided, rfl, _, sameProcessing, tiles⟩
        · exact absurd everyDone incomplete
        · refine ⟨decided, List.mem_append_right _ (List.mem_singleton_self decided), ?_⟩
          exact mergedIn_of_done (consistent.afterOwnUpdate published) everyDone sameProcessing
            tiles
      · have rows := ofProcessing_ownUpdate_of_ne consistent published own
        change ∀ row ∈ ofProcessing (ownUpdate system.db message) processingId, _ at everyDone
        change ofProcessing (ownUpdate system.db message) processingId ≠ [] at present
        rw [rows] at present everyDone
        obtain ⟨earlier, member, facts⟩ := merged processingId present everyDone
        exact ⟨earlier, kept earlier member, facts.of_same_rows rows⟩

theorem Transition.merged {system next : System} {event : Event}
    (transition : Transition system event next) (owned : Owned system)
    (stepped : delivery.step system event = some next) (merged : Merged system) :
    Merged next := by
  have same : ∀ merge ∈ system.mergeMessages, merge ∈ system.mergeMessages :=
    fun _ member => member
  cases transition with
  | orchestratorInserted phase transform missing sameWorkers rowKey rows =>
      exact merged.step same
        (fun processingId => Or.inl (ofProcessing_of_workers_eq sameWorkers processingId))
  | @workersInserted handler strategy uuid message geoTransform database scan grid workers phase
      gridEq absent workersEq sameOrchestrators rows =>
      have fresh : ∀ row ∈ workers, row.processingId = message.processingId ∧ row.state = .init :=
        fun row member => mem_newWorkers (workersEq ▸ member)
      refine merged.step same (fun processingId => ?_)
      by_cases own : message.processingId = processingId
      · subst own
        cases workers with
        | nil =>
            rw [List.append_nil] at rows
            exact Or.inl (by unfold ofProcessing; rw [← rows]; rfl)
        | cons worker rest =>
            right
            refine ⟨worker, (mem_ofProcessing _ _ _).mpr ⟨?_, (fresh worker List.mem_cons_self).1⟩,
              ?_⟩
            · exact rows ▸ List.mem_append_right _ List.mem_cons_self
            · rw [(fresh worker List.mem_cons_self).2]
              exact nofun
      · refine Or.inl (ofProcessing_append_other rows ?_)
        intro row member rowSame
        exact own ((fresh row member).1.symm.trans rowSame)
  | @startCommitted handler strategy message totalWorkers worker rest phase initial =>
      have copies : system.db.Copies (started worker) :=
        (owned.consistent.head_copies phase).1.of_assignment_eq rfl
      refine merged.step same (fun processingId => ?_)
      by_cases own : (started worker).processingId = processingId
      · right
        refine ⟨started worker, (mem_ofProcessing _ _ _).mpr ⟨?_, own⟩, nofun⟩
        exact (mem_save_iff copies _).mpr (Or.inr rfl)
      · exact Or.inl (ofProcessing_save_of_ne copies own)
  | callbackDropped published => exact merged.callback owned.consistent stepped
  | callbackCommitted published found => exact merged.callback owned.consistent stepped
  | callbackRolledBack published => exact merged.callback owned.consistent stepped
  | _ => exact merged.step same (fun _ => Or.inl rfl)

theorem merged_initial : Merged (System.initial Database.empty) :=
  fun _ present _ => absurd rfl present

end EchoProcessing.Orchestrator
