/-
What the messages in flight refer to.

A worker is announced after the commit of its row, its row is inserted after the
commit of the orchestrator row, and no row is ever taken away. A callback therefore
meets its worker and its orchestrator, whatever was rolled back or redelivered.
-/

import EchoProcessing.Orchestrator.MergeSafety

namespace EchoProcessing.Orchestrator

open EchoWorkerRepository EchoWorkerService

/-- Both ids of a message name committed rows, and the worker belongs to the processing. -/
structure RefersTo (db : Database) (processingId workerId : String) : Prop where
  worker : ∃ row, findByWorkerId db workerId = some row ∧ row.processingId = processingId
  orchestrator : ∃ row, EchoOrchestratorRepository.findByProcessingId db processingId = some row

private theorem Consistent.refersTo_of_worker {system : System} (consistent : Consistent system)
    {message : EchoWorkerMessage} (published : message ∈ system.workerMessages) :
    RefersTo system.db message.processingId message.workerId := by
  obtain ⟨row, member, sameWorker, sameProcessing⟩ :=
    consistent.workerMessages message published
  have found : findByWorkerId system.db message.workerId = some row :=
    (findByWorkerId_eq_some_iff _ _ _).mpr ⟨member, sameWorker⟩
  exact ⟨⟨row, found, sameProcessing⟩, sameProcessing ▸ consistent.orchestrator row member⟩

theorem Consistent.refersTo_of_callback {system : System} (consistent : Consistent system)
    {message : EchoWorkerCallbackMessage} (published : message ∈ system.callbackMessages) :
    RefersTo system.db message.processingId message.workerId := by
  obtain ⟨source, sourceMember, rfl⟩ := consistent.callbackMessages message published
  exact consistent.refersTo_of_worker sourceMember

/-- A delivery of the callback returns, and its commit leaves the row done with its tile. -/
structure Handled (system : System) (message : EchoWorkerCallbackMessage) (scan : Scan) :
    Prop where
  returns : ∃ row merge, findByWorkerId system.db message.workerId = some row ∧
    callbackEchoWorker scan system.db message.processingId message.workerId message.imageURL =
      .ok (save system.db (finished row message.imageURL), merge)
  recorded : ∃ next row,
    delivery.step system (.callback message scan .committed) = some next ∧
      findByWorkerId next.db message.workerId = some row ∧
      row.state = .done ∧ row.tileURL = some message.imageURL

theorem Consistent.handled {system : System} (consistent : Consistent system)
    {message : EchoWorkerCallbackMessage} (published : message ∈ system.callbackMessages)
    (scan : Scan) : Handled system message scan := by
  obtain ⟨row, found, _⟩ := consistent.row_of_callback published
  obtain ⟨rowMember, rowWorker⟩ := (findByWorkerId_eq_some_iff _ _ _).mp found
  obtain ⟨merge, returned, _⟩ := callback_outcome consistent published scan
  have updateEq : ownUpdate system.db message =
      save system.db (finished row message.imageURL) := by
    unfold ownUpdate
    rw [found]
  rw [updateEq] at returned
  refine ⟨⟨row, merge, found, returned⟩, ?_⟩
  have copies : system.db.Copies (finished row message.imageURL) :=
    (Database.copies_of_mem rowMember).of_assignment_eq rfl
  have stepped := (Performs.callbackReturned published returned).step
  refine ⟨_, finished row message.imageURL, stepped, ?_, rfl, rfl⟩
  exact (findByWorkerId_save copies message.workerId).trans (if_pos rowWorker.symm)

/-- Every message in flight refers to committed rows, so no callback is skipped, none ends
with the exception of a missing orchestrator, and none is lost. -/
theorem messages_refer_to_committed_rows {events : List Event} {system : System}
    (reached : delivery.Runs (System.initial Database.empty) events system) :
    (∀ message ∈ system.workerMessages,
        RefersTo system.db message.processingId message.workerId) ∧
      (∀ message ∈ system.callbackMessages,
        RefersTo system.db message.processingId message.workerId) ∧
      ∀ message ∈ system.callbackMessages, ∀ scan, Handled system message scan := by
  have consistent := consistent_of_runs reached
  exact ⟨fun _ published => consistent.refersTo_of_worker published,
    fun _ published => consistent.refersTo_of_callback published,
    fun _ published scan => consistent.handled published scan⟩

theorem messages_refer_to_committed_rows_two_tiles :
    RefersTo Sample.lastReport.db "p" "v" ∧ RefersTo Sample.lastReport.db "p" "w" ∧
      Handled Sample.lastReport Sample.rightMessage.callback .insertionOrder := by
  have left : Sample.leftMessage.callback ∈ Sample.lastReport.callbackMessages := by
    decide +kernel
  have right : Sample.rightMessage.callback ∈ Sample.lastReport.callbackMessages := by
    decide +kernel
  have facts := messages_refer_to_committed_rows Sample.runs_lastReport
  exact ⟨facts.2.1 _ left, facts.2.1 _ right, facts.2.2 _ right .insertionOrder⟩

end EchoProcessing.Orchestrator
