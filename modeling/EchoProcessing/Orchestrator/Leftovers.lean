/-
What a delivery leaves behind when it fails before the workers are stored.

The two creations are transactions of their own, and the first one is not undone when
something after it throws. What it leaves is an orchestrator row without workers, which
the next delivery of the message finds in the place of its own.
-/

import EchoProcessing.Orchestrator.Start

namespace EchoProcessing.Orchestrator

open EchoWorkerRepository EchoWorkerService

namespace Listener

def receiveStartMessage (strategies : ℕ → ErrorStrategy) (uuid : ℕ → String) (scan : Scan)
    (db : Database) (message : EchoStartMessage) : Ended :=
  match applyErrorStrategy (strategies 0) .onStartMessage with
  | .error failure => { outcome := .error failure, db := db, published := [] }
  | .ok () => EchoService.start strategies uuid scan db message

end Listener

/-- The places at which a delivery can throw before `createWorkers` has committed. In the
last two it is `start` that throws. -/
inductive ThrowsEarly (strategies : ℕ → ErrorStrategy) (uuid : ℕ → String) (scan : Scan)
    (db : Database) (message : EchoStartMessage) : Failure → Prop where
  | received {failure}
      (thrown : applyErrorStrategy (strategies 0) .onStartMessage = .error failure) :
      ThrowsEarly strategies uuid scan db message failure
  | orchestrator {failure} (passed : applyErrorStrategy (strategies 0) .onStartMessage = .ok ())
      (refused : EchoService.createOrchestrator db message = .error failure) :
      ThrowsEarly strategies uuid scan db message failure
  | workers {failure geoTransform created}
      (passed : applyErrorStrategy (strategies 0) .onStartMessage = .ok ())
      (committed : EchoService.createOrchestrator db message = .ok (geoTransform, created))
      (refused : EchoService.createWorkers (strategies 0) uuid scan created message geoTransform =
        .error failure) :
      ThrowsEarly strategies uuid scan db message failure

private theorem applyErrorStrategy_of_not {strategy : ErrorStrategy} {source : ErrorSource}
    (quiet : strategy source = false) : applyErrorStrategy strategy source = .ok () := by
  unfold applyErrorStrategy
  rw [quiet]
  rfl

private theorem hasCorners_of_createOrchestrator {db created : Database}
    {message : EchoStartMessage} {geoTransform : GeoTransform}
    (committed : EchoService.createOrchestrator db message = .ok (geoTransform, created)) :
    message.HasCorners :=
  (geoTransformOf_ok_iff message).mp
    ⟨geoTransform, (EchoService.createOrchestrator_ok committed).1⟩

private theorem createOrchestrator_of_hasCorners (db : Database) {message : EchoStartMessage}
    (corners : message.HasCorners) (fits : message.TextsFit) :
    ∃ geoTransform created,
      EchoService.createOrchestrator db message = .ok (geoTransform, created) := by
  obtain ⟨geoTransform, transform⟩ := (geoTransformOf_ok_iff message).mpr corners
  obtain ⟨created, returned⟩ := createOrchestrator_returns db fits geoTransform
  refine ⟨geoTransform, created, ?_⟩
  unfold EchoService.createOrchestrator
  rw [transform]
  simp only [bind, Except.bind, returned]
  rfl

private theorem stored_of_createOrchestrator {db created : Database}
    {processingId imageUrl : String} {imageSizeX imageSizeY : ℤ} {geoTransform : GeoTransform}
    (returned : EchoOrchestratorService.createOrchestrator db processingId imageUrl imageSizeX
      imageSizeY geoTransform = .ok created) :
    ∃ row, EchoOrchestratorRepository.findByProcessingId created processingId = some row := by
  obtain ⟨_, ⟨rfl, row, found⟩ | ⟨_, _, row, key, rows⟩⟩ := createOrchestrator_ok returned
  · exact ⟨row, found⟩
  · refine ⟨row, (EchoOrchestratorRepository.findByProcessingId_eq_some_iff _ _ _).mpr ⟨?_, key⟩⟩
    rw [rows]
    exact List.mem_append_right _ List.mem_cons_self

private theorem existsByProcessingId_of_createOrchestrator {db created : Database}
    {processingId imageUrl : String} {imageSizeX imageSizeY : ℤ} {geoTransform : GeoTransform}
    (returned : EchoOrchestratorService.createOrchestrator db processingId imageUrl imageSizeX
      imageSizeY geoTransform = .ok created) (wanted : String) :
    existsByProcessingId created wanted = existsByProcessingId db wanted := by
  unfold existsByProcessingId ofProcessing
  rw [(createOrchestrator_ok returned).1]

private theorem textsFit_of_createOrchestrator {db created : Database} {message : EchoStartMessage}
    {geoTransform : GeoTransform}
    (missing : EchoOrchestratorRepository.findByProcessingId db message.processingId = none)
    (committed : EchoService.createOrchestrator db message = .ok (geoTransform, created)) :
    message.TextsFit := by
  obtain ⟨_, returned⟩ := EchoService.createOrchestrator_ok committed
  obtain ⟨_, ⟨_, row, found⟩ | ⟨_, fits, _⟩⟩ := createOrchestrator_ok returned
  · cases missing.symm.trans found
  · exact ⟨fits.1, fits.2⟩

theorem createOrchestrator_again {db created : Database} {message : EchoStartMessage}
    {geoTransform : GeoTransform}
    (committed : EchoService.createOrchestrator db message = .ok (geoTransform, created)) :
    EchoService.createOrchestrator created message = .ok (geoTransform, created) := by
  obtain ⟨transform, returned⟩ := EchoService.createOrchestrator_ok committed
  obtain ⟨row, found⟩ := stored_of_createOrchestrator returned
  unfold EchoService.createOrchestrator EchoOrchestratorService.createOrchestrator
  rw [transform]
  simp only [bind, Except.bind, found]
  rfl

/-- Every other call goes on to the workers that the second transaction has committed. -/
theorem throwsEarly_or_started (strategies : ℕ → ErrorStrategy) (uuid : ℕ → String) (scan : Scan)
    (db : Database) (message : EchoStartMessage) :
    (∃ failure, ThrowsEarly strategies uuid scan db message failure) ∨
      ∃ geoTransform created workers inserted,
        EchoService.createOrchestrator db message = .ok (geoTransform, created) ∧
        EchoService.createWorkers (strategies 0) uuid scan created message geoTransform =
          .ok (workers, inserted) ∧
        Listener.receiveStartMessage strategies uuid scan db message =
          EchoService.startWorkers strategies workers.length inserted workers := by
  cases received : applyErrorStrategy (strategies 0) .onStartMessage with
  | error failure => exact Or.inl ⟨failure, .received received⟩
  | ok passed =>
      cases created : EchoService.createOrchestrator db message with
      | error failure => exact Or.inl ⟨failure, .orchestrator received created⟩
      | ok result =>
          obtain ⟨geoTransform, database⟩ := result
          cases stored : EchoService.createWorkers (strategies 0) uuid scan database message
              geoTransform with
          | error failure => exact Or.inl ⟨failure, .workers received created stored⟩
          | ok result =>
              obtain ⟨workers, inserted⟩ := result
              refine Or.inr ⟨geoTransform, database, workers, inserted, rfl, stored, ?_⟩
              simp only [Listener.receiveStartMessage, received, EchoService.start, created, stored]

private theorem throwsEarly_of_nonpositive {strategies : ℕ → ErrorStrategy} (uuid : ℕ → String)
    (scan : Scan) (db : Database) {message : EchoStartMessage}
    (quiet : strategies 0 .onStartMessage = false)
    (corners : message.HasCorners) (fits : message.TextsFit)
    (nonpositive : message.imageSizeX ≤ 0 ∨ message.imageSizeY ≤ 0) :
    ThrowsEarly strategies uuid scan db message (.illegalState (some "Empty grid")) := by
  obtain ⟨geoTransform, created, committed⟩ := createOrchestrator_of_hasCorners db corners fits
  refine .workers (applyErrorStrategy_of_not quiet) committed ?_
  unfold EchoService.createWorkers
  rw [gridOf_of_nonpositive geoTransform nonpositive]
  rfl

theorem throwsEarly_of_injected {strategies : ℕ → ErrorStrategy} {uuid : ℕ → String} (scan : Scan)
    {db : Database} {message : EchoStartMessage} (quiet : strategies 0 .onStartMessage = false)
    (injected : strategies 0 .afterInitWorkersInDatabase = true) (startable : message.Startable)
    (ids : NewIds uuid (tileCount message) db)
    (noWorkers : existsByProcessingId db message.processingId = false) :
    ThrowsEarly strategies uuid scan db message (.illegalArgument
      ("Manual error on source " ++ ErrorSource.afterInitWorkersInDatabase.name)) := by
  obtain ⟨grid, gridFor⟩ := startable.gridFor
  obtain ⟨geoTransform, transform, gridEq⟩ := gridFor
  have corners : message.HasCorners := startable.hasCorners
  obtain ⟨own, created, committed⟩ := createOrchestrator_of_hasCorners db corners startable.texts
  obtain ⟨ownTransform, returned⟩ := EchoService.createOrchestrator_ok committed
  obtain rfl := Except.ok.inj (transform.symm.trans ownTransform)
  have sameWorkers := (createOrchestrator_ok returned).1
  have createdIds : NewIds uuid grid.cells.length created := by
    rw [GridFor.length_cells ⟨_, transform, gridEq⟩]
    exact ⟨ids.distinct, sameWorkers ▸ ids.unused⟩
  have absent : existsByProcessingId created message.processingId = false :=
    (existsByProcessingId_of_createOrchestrator returned _).trans noWorkers
  obtain ⟨saved, savedEq⟩ := saveAll_returns message.processingId message.imageURL createdIds
  refine .workers (applyErrorStrategy_of_not quiet) committed ?_
  unfold EchoService.createWorkers EchoWorkerService.createWorkers applyErrorStrategy
  rw [gridEq]
  simp only [bind, Except.bind, absent, savedEq, injected]
  rfl

/-- Either nothing has happened to the database, or `createOrchestrator` and nothing else. -/
theorem ThrowsEarly.leaves {strategies : ℕ → ErrorStrategy} {uuid : ℕ → String} {scan : Scan}
    {db : Database} {message : EchoStartMessage} {failure : Failure}
    (throws : ThrowsEarly strategies uuid scan db message failure) :
    ∃ left, Listener.receiveStartMessage strategies uuid scan db message =
        { outcome := .error failure, db := left, published := [] } ∧
      ((left = db ∧
          ¬(strategies 0 .onStartMessage = false ∧ message.HasCorners ∧ message.TextsFit)) ∨
        (strategies 0 .onStartMessage = false ∧ ∃ geoTransform,
          EchoService.createOrchestrator db message = .ok (geoTransform, left))) := by
  have quiet : applyErrorStrategy (strategies 0) .onStartMessage = .ok () →
      strategies 0 .onStartMessage = false := by
    intro passed
    unfold applyErrorStrategy at passed
    split at passed
    · cases passed
    · rename_i silent
      exact Bool.eq_false_of_not_eq_true silent
  unfold Listener.receiveStartMessage EchoService.start
  cases throws with
  | received thrown =>
      rw [thrown]
      refine ⟨db, rfl, Or.inl ⟨rfl, ?_⟩⟩
      rintro ⟨silent, _⟩
      rw [applyErrorStrategy_of_not silent] at thrown
      cases thrown
  | orchestrator passed refused =>
      rw [passed]
      simp only [refused]
      refine ⟨db, rfl, Or.inl ⟨rfl, ?_⟩⟩
      rintro ⟨_, corners, fits⟩
      obtain ⟨geoTransform, created, committed⟩ :=
        createOrchestrator_of_hasCorners db corners fits
      rw [committed] at refused
      cases refused
  | @workers geoTransform created passed committed refused =>
      rw [passed]
      simp only [committed, refused]
      exact ⟨created, rfl, Or.inr ⟨quiet passed, geoTransform, rfl⟩⟩

/-- The next call of `start` does what it would have done without the failed delivery. -/
theorem ThrowsEarly.redelivery {strategies : ℕ → ErrorStrategy} {uuid : ℕ → String} {scan : Scan}
    {db : Database} {message : EchoStartMessage} {failure : Failure}
    (throws : ThrowsEarly strategies uuid scan db message failure)
    (nextStrategies : ℕ → ErrorStrategy)
    (nextUuid : ℕ → String) (nextScan : Scan) :
    EchoService.start nextStrategies nextUuid nextScan
        (Listener.receiveStartMessage strategies uuid scan db message).db message =
      EchoService.start nextStrategies nextUuid nextScan db message := by
  obtain ⟨left, ended, ⟨rfl, _⟩ | ⟨_, geoTransform, committed⟩⟩ := throws.leaves
  · rw [ended]
  · rw [ended]
    unfold EchoService.start
    rw [createOrchestrator_again committed, committed]

/-- No worker is there, and the orchestrator row is there exactly when `createOrchestrator`
was reached, and the corners and the texts allowed it. -/
theorem early_failure_leaves_iff {strategies : ℕ → ErrorStrategy} {uuid : ℕ → String} {scan : Scan}
    {db : Database} {message : EchoStartMessage} {failure : Failure}
    (noOrchestrator :
      EchoOrchestratorRepository.findByProcessingId db message.processingId = none)
    (noWorkers : existsByProcessingId db message.processingId = false)
    (throws : ThrowsEarly strategies uuid scan db message failure) :
    let ended := Listener.receiveStartMessage strategies uuid scan db message
    ended.outcome = .error failure ∧ ended.published = [] ∧
      existsByProcessingId ended.db message.processingId = false ∧
      ((∃ row, EchoOrchestratorRepository.findByProcessingId ended.db message.processingId =
          some row) ↔
        strategies 0 .onStartMessage = false ∧ message.HasCorners ∧ message.TextsFit) := by
  obtain ⟨left, ended, ⟨rfl, stopped⟩ | ⟨silent, geoTransform, committed⟩⟩ := throws.leaves
  · rw [ended]
    refine ⟨rfl, rfl, noWorkers, iff_of_false ?_ stopped⟩
    rintro ⟨row, found⟩
    rw [noOrchestrator] at found
    cases found
  · rw [ended]
    obtain ⟨_, returned⟩ := EchoService.createOrchestrator_ok committed
    refine ⟨rfl, rfl, ?_, iff_of_true (stored_of_createOrchestrator returned)
      ⟨silent, hasCorners_of_createOrchestrator committed,
        textsFit_of_createOrchestrator noOrchestrator committed⟩⟩
    exact (existsByProcessingId_of_createOrchestrator returned _).trans noWorkers

namespace Sample

def failsAfterInit : ℕ → ErrorStrategy :=
  fun _ source => source = .afterInitWorkersInDatabase

def emptyImage : EchoStartMessage :=
  { startMessage with imageSizeX := -1 }

private theorem textsFit_startMessage : startMessage.TextsFit :=
  ⟨by decide, by decide⟩

private theorem throwsEarly_startMessage :
    ThrowsEarly failsAfterInit (fun _ => "w") .insertionOrder Database.empty startMessage
      (.illegalArgument "Manual error on source AFTER_INIT_WORKERS_IN_DATABASE") := by
  have startable : startMessage.Startable :=
    { sizeX := by decide
      sizeY := by decide
      upperLeft := rfl
      upperRight := rfl
      lowerLeft := rfl
      texts := textsFit_startMessage }
  have ids : NewIds (fun _ => "w") (tileCount startMessage) Database.empty := by
    refine ⟨?_, fun _ member => by cases member⟩
    decide +kernel
  exact throwsEarly_of_injected .insertionOrder rfl rfl startable ids rfl

private theorem throwsEarly_emptyImage :
    ThrowsEarly (fun _ => .none) (fun _ => "w") .insertionOrder Database.empty emptyImage
      (.illegalState (some "Empty grid")) :=
  throwsEarly_of_nonpositive _ _ _ rfl ⟨rfl, rfl, rfl⟩ ⟨by decide, by decide⟩
    (Or.inl (by decide))

end Sample

theorem early_failure_leaves_iff_injected :
    let ended := Listener.receiveStartMessage Sample.failsAfterInit (fun _ => "w")
      .insertionOrder Database.empty Sample.startMessage
    existsByProcessingId ended.db "p" = false ∧
      ∃ row, EchoOrchestratorRepository.findByProcessingId ended.db "p" = some row := by
  obtain ⟨_, _, noWorker, orchestrator⟩ :=
    early_failure_leaves_iff rfl rfl Sample.throwsEarly_startMessage
  exact ⟨noWorker, orchestrator.mpr ⟨rfl, ⟨rfl, rfl, rfl⟩, Sample.textsFit_startMessage⟩⟩

/-- The orchestrator row stays when the insertion of the workers is rolled back, and when the
image has no cell. -/
theorem failed_start_leaves_orchestrator :
    (ThrowsEarly Sample.failsAfterInit (fun _ => "w") .insertionOrder Database.empty
        Sample.startMessage
        (.illegalArgument "Manual error on source AFTER_INIT_WORKERS_IN_DATABASE") ∧
      EchoOrchestratorRepository.findByProcessingId
        (EchoService.start Sample.failsAfterInit (fun _ => "w") .insertionOrder Database.empty
          Sample.startMessage).db "p" ≠ none) ∧
    (ThrowsEarly (fun _ => .none) (fun _ => "w") .insertionOrder Database.empty Sample.emptyImage
        (.illegalState (some "Empty grid")) ∧
      EchoOrchestratorRepository.findByProcessingId
        (EchoService.start (fun _ => .none) (fun _ => "w") .insertionOrder Database.empty
          Sample.emptyImage).db "p" ≠ none) := by
  refine ⟨⟨Sample.throwsEarly_startMessage, ?_⟩, ⟨Sample.throwsEarly_emptyImage, ?_⟩⟩
  · decide +kernel
  · decide +kernel

end EchoProcessing.Orchestrator
