/-
Overlapping callbacks and the merge that none of them starts.

Each callback transaction decides from a query that sees the committed rows and its
own update. The decisions of a set of overlapping transactions are all negative when
each query misses the update of another transaction, and then nothing is published.
-/

import EchoProcessing.Orchestrator.Coherence

namespace EchoProcessing.Orchestrator.Sessions

open EchoWorkerRepository EchoWorkerService

/-- The statements of the open callback transactions. -/
def Event.OfCallback : Event → Prop
  | .read _ => True
  | .write _ => True
  | .query _ => True
  | .publish _ _ => True
  | .commit _ => True
  | _ => False

/-- All workers are processing, and there is one callback for each of them. -/
structure OnePerWorker (db : Database) (processingId : String)
    (messages : List EchoWorkerCallbackMessage) : Prop where
  nonempty : ofProcessing db processingId ≠ []
  processing : ∀ row ∈ ofProcessing db processingId, row.state = .processing
  sameProcessing : ∀ message ∈ messages, message.processingId = processingId
  workers : (messages.map EchoWorkerCallbackMessage.workerId).Perm
    ((ofProcessing db processingId).map EchoWorker.workerId)

def System.withCallbacks (db : Database) (messages : List EchoWorkerCallbackMessage) : System :=
  { System.initial db with
    callbackMessages := messages
    callbacks := fun transaction =>
      match messages[transaction]? with
      | some message => .delivered message
      | none => .idle }

private theorem withCallbacks_callbacks (db : Database) (messages : List EchoWorkerCallbackMessage)
    (transaction : ℕ) :
    (∃ message, messages[transaction]? = some message ∧
      (System.withCallbacks db messages).callbacks transaction = .delivered message) ∨
    (System.withCallbacks db messages).callbacks transaction = .idle := by
  have phase : (System.withCallbacks db messages).callbacks transaction =
      match messages[transaction]? with
      | some message => .delivered message
      | none => .idle := rfl
  rw [phase]
  cases messages[transaction]? with
  | none => exact Or.inr rfl
  | some message => exact Or.inl ⟨message, rfl, rfl⟩

theorem withCallbacks_waiting (db : Database) (messages : List EchoWorkerCallbackMessage)
    (transaction : ℕ) :
    ((System.withCallbacks db messages).callbacks transaction).row? = none ∧
      ∀ message, (System.withCallbacks db messages).callbacks transaction ≠ .committed message := by
  rcases withCallbacks_callbacks db messages transaction with ⟨own, _, phase⟩ | phase
  · rw [phase]
    exact ⟨rfl, fun _ => CallbackPhase.noConfusion⟩
  · rw [phase]
    exact ⟨rfl, fun _ => CallbackPhase.noConfusion⟩

def CallbackPhase.message? : CallbackPhase → Option EchoWorkerCallbackMessage
  | .idle => none
  | .delivered message => some message
  | .loaded message _ => some message
  | .flushed message _ => some message
  | .queried message _ _ => some message
  | .published message _ => some message
  | .committed message => some message

private theorem message_of_row {phase : CallbackPhase} {message : EchoWorkerCallbackMessage}
    {row : EchoWorker} (read : phase.row? = some (message, row)) :
    phase.message? = some message := by
  cases phase <;> cases read <;> rfl

/-- What holds while the transactions of `messages` overlap. -/
structure Overlapping (db : Database) (processingId : String)
    (messages : List EchoWorkerCallbackMessage) (system : System) : Prop where
  workers : (ofProcessing system.db processingId).map EchoWorker.workerId =
    (ofProcessing db processingId).map EchoWorker.workerId
  carries : ∀ transaction message,
    (system.callbacks transaction).message? = some message →
      messages[transaction]? = some message
  reads : ∀ transaction message row,
    (system.callbacks transaction).row? = some (message, row) →
      row ∈ ofProcessing system.db processingId ∧ row.workerId = message.workerId
  done : ∀ row ∈ ofProcessing system.db processingId, row.state = .done ↔
    ∃ transaction message, system.callbacks transaction = .committed message ∧
      message.workerId = row.workerId
  merges : ∀ merge ∈ system.mergeMessages, merge.processingId = processingId

/-! ### One transaction for each worker -/

section OnePerWorker

variable {db : Database} {processingId : String} {messages : List EchoWorkerCallbackMessage}

private theorem OnePerWorker.same_transaction (one : OnePerWorker db processingId messages)
    {left right : ℕ} {first second : EchoWorkerCallbackMessage}
    (leftEq : messages[left]? = some first) (rightEq : messages[right]? = some second)
    (same : first.workerId = second.workerId) : left = right := by
  have distinct : (messages.map EchoWorkerCallbackMessage.workerId).Nodup :=
    one.workers.nodup_iff.mpr (nodup_workerIds db processingId)
  have leftId : (messages.map EchoWorkerCallbackMessage.workerId)[left]? =
      some first.workerId := by
    rw [List.getElem?_map, leftEq, Option.map_some]
  have rightId : (messages.map EchoWorkerCallbackMessage.workerId)[right]? =
      some second.workerId := by
    rw [List.getElem?_map, rightEq, Option.map_some]
  obtain ⟨bound, _⟩ := List.getElem?_eq_some_iff.mp leftId
  exact (List.getElem?_inj bound distinct).mp (leftId.trans (same ▸ rightId.symm))

theorem Overlapping.initial (one : OnePerWorker db processingId messages) :
    Overlapping db processingId messages (System.withCallbacks db messages) := by
  refine ⟨rfl, ?_, ?_, ?_, ?_⟩
  · intro transaction message current
    rcases withCallbacks_callbacks db messages transaction with ⟨own, ownEq, phase⟩ | phase
    · rw [phase] at current
      exact ownEq.trans current
    · rw [phase] at current
      cases current
  · intro transaction message row current
    rw [(withCallbacks_waiting db messages transaction).1] at current
    cases current
  · intro row member
    constructor
    · intro isDone
      rw [one.processing row member] at isDone
      cases isDone
    · rintro ⟨transaction, message, committed, _⟩
      exact absurd committed ((withCallbacks_waiting db messages transaction).2 message)
  · intro merge member
    cases member

theorem Overlapping.row_of_message {system : System} (one : OnePerWorker db processingId messages)
    (overlapping : Overlapping db processingId messages system)
    {message : EchoWorkerCallbackMessage} (member : message ∈ messages) :
    ∃ row ∈ ofProcessing system.db processingId, row.workerId = message.workerId := by
  have listed : message.workerId ∈
      (ofProcessing system.db processingId).map EchoWorker.workerId := by
    rw [overlapping.workers]
    exact one.workers.mem_iff.mp (List.mem_map_of_mem member)
  exact List.mem_map.mp listed

theorem Overlapping.advance {system : System}
    (overlapping : Overlapping db processingId messages system) {transaction : ℕ}
    {phase : CallbackPhase}
    (sameMessage : ∀ message, phase.message? = some message →
      (system.callbacks transaction).message? = some message)
    (read : ∀ message row, phase.row? = some (message, row) →
      row ∈ ofProcessing system.db processingId ∧ row.workerId = message.workerId)
    (before : ∀ message, system.callbacks transaction ≠ .committed message)
    (after : ∀ message, phase ≠ .committed message) :
    Overlapping db processingId messages (system.setCallback transaction phase) := by
  refine ⟨overlapping.workers, ?_, ?_, ?_, overlapping.merges⟩
  · apply (Function.forall_update_iff system.callbacks (fun other current =>
      ∀ message, current.message? = some message → messages[other]? = some message)).mpr
    refine ⟨?_, fun other _ => overlapping.carries other⟩
    intro message current
    exact overlapping.carries transaction message (sameMessage message current)
  · exact (Function.forall_update_iff system.callbacks (fun _ current =>
      ∀ message row, current.row? = some (message, row) →
        row ∈ ofProcessing system.db processingId ∧ row.workerId = message.workerId)).mpr
      ⟨read, fun other _ => overlapping.reads other⟩
  · intro row member
    rw [overlapping.done row member]
    constructor
    · rintro ⟨other, message, committed, sameWorker⟩
      have different : other ≠ transaction := by
        rintro rfl
        exact before message committed
      refine ⟨other, message, ?_, sameWorker⟩
      change Function.update system.callbacks transaction phase other = _
      rw [Function.update_of_ne different]
      exact committed
    · rintro ⟨other, message, committed, sameWorker⟩
      change Function.update system.callbacks transaction phase other = _ at committed
      by_cases same : other = transaction
      · rw [same, Function.update_self] at committed
        exact absurd committed (after message)
      · rw [Function.update_of_ne same] at committed
        exact ⟨other, message, committed, sameWorker⟩

theorem Overlapping.keepRow {system : System}
    (overlapping : Overlapping db processingId messages system) {transaction : ℕ}
    {phase : CallbackPhase} {message : EchoWorkerCallbackMessage} {row : EchoWorker}
    (before : (system.callbacks transaction).row? = some (message, row))
    (after : phase.row? = some (message, row)) :
    Overlapping db processingId messages (system.setCallback transaction phase) := by
  apply overlapping.advance
  · intro received current
    rw [message_of_row before]
    exact (message_of_row after).symm.trans current
  · intro received read current
    exact overlapping.reads transaction received read (before.trans (after.symm.trans current))
  · intro received committed
    rw [committed] at before
    cases before
  · rintro received rfl
    cases after

theorem Overlapping.commit {system : System} (one : OnePerWorker db processingId messages)
    (overlapping : Overlapping db processingId messages system) {transaction : ℕ}
    {message : EchoWorkerCallbackMessage} {row : EchoWorker}
    (own : (system.callbacks transaction).message? = some message)
    (read : (system.callbacks transaction).row? = some (message, row)) :
    Overlapping db processingId messages (system.commitReport transaction message row) := by
  obtain ⟨rowMember, rowWorker⟩ := overlapping.reads transaction message row read
  have ownIndex := overlapping.carries transaction message own
  have copies : system.db.Copies (finished row message.imageURL) :=
    (Database.copies_of_mem ((mem_ofProcessing _ _ _).mp rowMember).1).of_assignment_eq rfl
  have phaseOf : ∀ other, (system.commitReport transaction message row).callbacks other =
      if other = transaction then .committed message else system.callbacks other := by
    intro other
    change Function.update system.callbacks transaction (.committed message) other = _
    rw [Function.update_apply]
  have rowsEq : ofProcessing (system.commitReport transaction message row).db processingId =
      (ofProcessing system.db processingId).map (overwrite (finished row message.imageURL)) :=
    ofProcessing_save copies processingId
  refine ⟨?_, ?_, ?_, ?_, overlapping.merges⟩
  · exact (map_ofProcessing_save copies processingId _ workerId_of_assignment).trans
      overlapping.workers
  · intro other received current
    rw [phaseOf] at current
    by_cases same : other = transaction
    · rw [if_pos same] at current
      obtain rfl : message = received := Option.some.inj current
      rw [same]
      exact ownIndex
    · rw [if_neg same] at current
      exact overlapping.carries other received current
  · intro other received otherRow current
    rw [phaseOf] at current
    by_cases same : other = transaction
    · rw [if_pos same] at current
      cases current
    · rw [if_neg same] at current
      obtain ⟨otherMember, otherWorker⟩ := overlapping.reads other received otherRow current
      refine ⟨?_, otherWorker⟩
      have otherIndex := overlapping.carries other received (message_of_row current)
      have different : otherRow.workerId ≠ (finished row message.imageURL).workerId := by
        intro sameWorker
        exact same (one.same_transaction otherIndex ownIndex
          (otherWorker.symm.trans (sameWorker.trans rowWorker)))
      rw [rowsEq]
      exact List.mem_map.mpr ⟨otherRow, otherMember, overwrite_of_ne different⟩
  · intro other member
    rcases mem_ofProcessing_save copies member with ⟨old, different⟩ | rfl
    · rw [overlapping.done other old]
      constructor
      · rintro ⟨index, received, committed, sameWorker⟩
        refine ⟨index, received, ?_, sameWorker⟩
        rw [phaseOf]
        by_cases same : index = transaction
        · rw [same] at committed
          rw [committed] at read
          cases read
        · rw [if_neg same]
          exact committed
      · rintro ⟨index, received, committed, sameWorker⟩
        rw [phaseOf] at committed
        by_cases same : index = transaction
        · rw [if_pos same] at committed
          obtain rfl : message = received := CallbackPhase.committed.inj committed
          exact absurd (sameWorker.symm.trans rowWorker.symm) different
        · rw [if_neg same] at committed
          exact ⟨index, received, committed, sameWorker⟩
    · have isDone : (finished row message.imageURL).state = .done := rfl
      simp only [isDone, true_iff]
      refine ⟨transaction, message, ?_, rowWorker.symm⟩
      rw [phaseOf, if_pos rfl]

/-- The query answers yes exactly when all the other transactions have committed. -/
theorem Overlapping.complete_iff {system : System} (one : OnePerWorker db processingId messages)
    (overlapping : Overlapping db processingId messages system) {transaction : ℕ}
    {message : EchoWorkerCallbackMessage} {row : EchoWorker}
    (phase : system.callbacks transaction = .flushed message row) :
    allDone (system.view message row) message.processingId = true ↔
      ∀ other received, other ≠ transaction → messages[other]? = some received →
        system.callbacks other = .committed received := by
  obtain ⟨rowMember, rowWorker⟩ :=
    overlapping.reads transaction message row (by rw [phase]; rfl)
  have ownIndex := overlapping.carries transaction message (by rw [phase]; rfl)
  have own := one.sameProcessing message (List.mem_of_getElem? ownIndex)
  have copies : system.db.Copies (finished row message.imageURL) :=
    (Database.copies_of_mem ((mem_ofProcessing _ _ _).mp rowMember).1).of_assignment_eq rfl
  rw [own, allDone_eq_true_iff]
  constructor
  · rintro ⟨_, everyDone⟩ other received different otherIndex
    obtain ⟨otherRow, otherMember, otherWorker⟩ :=
      overlapping.row_of_message one (List.mem_of_getElem? otherIndex)
    have differentWorker : otherRow.workerId ≠ (finished row message.imageURL).workerId := by
      intro sameWorker
      exact different (one.same_transaction otherIndex ownIndex
        (otherWorker.symm.trans (sameWorker.trans rowWorker)))
    have seen : otherRow ∈ ofProcessing (system.view message row) processingId := by
      change otherRow ∈ ofProcessing (save system.db _) processingId
      rw [ofProcessing_save copies]
      exact List.mem_map.mpr ⟨otherRow, otherMember, overwrite_of_ne differentWorker⟩
    obtain ⟨index, reported, committed, reportedWorker⟩ :=
      (overlapping.done otherRow otherMember).mp (everyDone otherRow seen)
    have reportedIndex := overlapping.carries index reported (by rw [committed]; rfl)
    obtain rfl : index = other :=
      one.same_transaction reportedIndex otherIndex (reportedWorker.trans otherWorker)
    obtain rfl : reported = received := Option.some.inj (reportedIndex.symm.trans otherIndex)
    exact committed
  · intro others
    constructor
    · exact fun empty => List.ne_nil_of_mem rowMember
        ((ofProcessing_save_eq_nil_iff copies processingId).mp empty)
    · intro other member
      rcases mem_ofProcessing_save copies member with ⟨old, different⟩ | rfl
      · have listed : other.workerId ∈ messages.map EchoWorkerCallbackMessage.workerId := by
          rw [one.workers.mem_iff, ← overlapping.workers]
          exact List.mem_map_of_mem old
        obtain ⟨received, receivedMember, sameWorker⟩ := List.mem_map.mp listed
        obtain ⟨index, indexEq⟩ := List.getElem?_of_mem receivedMember
        refine (overlapping.done other old).mpr ⟨index, received, ?_, sameWorker⟩
        apply others index received _ indexEq
        rintro rfl
        obtain rfl : received = message := Option.some.inj (indexEq.symm.trans ownIndex)
        exact different (sameWorker.symm.trans rowWorker.symm)
      · rfl

private theorem Transition.overlapping {system next : System} {event : Event}
    (transition : Transition system event next) (statement : event.OfCallback)
    (one : OnePerWorker db processingId messages)
    (overlapping : Overlapping db processingId messages system) :
    Overlapping db processingId messages next := by
  cases transition with
  | giveUp handler => exact { overlapping with }
  | @missing transaction message phase absent =>
      have index := overlapping.carries transaction message (by rw [phase]; rfl)
      obtain ⟨row, rowMember, sameWorker⟩ :=
        overlapping.row_of_message one (List.mem_of_getElem? index)
      have found := (findByWorkerId_eq_some_iff _ _ _).mpr
        ⟨((mem_ofProcessing _ _ _).mp rowMember).1, sameWorker⟩
      rw [found] at absent
      cases absent
  | @loaded transaction message row phase found =>
      have index := overlapping.carries transaction message (by rw [phase]; rfl)
      obtain ⟨other, otherMember, otherWorker⟩ :=
        overlapping.row_of_message one (List.mem_of_getElem? index)
      obtain ⟨rowMember, sameWorker⟩ := (findByWorkerId_eq_some_iff _ _ _).mp found
      have same : other = row := system.db.workers.eq_of_key_eq
        ((mem_ofProcessing _ _ _).mp otherMember).1 rowMember
        (otherWorker.trans sameWorker.symm)
      subst same
      apply overlapping.advance
      · intro received current
        rw [phase]
        exact current
      · intro received read current
        cases current
        exact ⟨otherMember, otherWorker⟩
      · rw [phase]
        exact fun _ => CallbackPhase.noConfusion
      · exact fun _ => CallbackPhase.noConfusion
  | flushed phase => exact overlapping.keepRow (by rw [phase]; rfl) rfl
  | queried phase => exact overlapping.keepRow (by rw [phase]; rfl) rfl
  | @mergePublished transaction message row scan merge phase returned =>
      obtain ⟨rowMember, _⟩ :=
        overlapping.reads transaction message row (by rw [phase]; rfl)
      have rowProcessing := ((mem_ofProcessing _ _ _).mp rowMember).2
      have logged : Overlapping db processingId messages { system with
          mergeMessages := system.mergeMessages ++ [merge] } :=
        { overlapping with
          merges := by
            intro other member
            rcases List.mem_append.mp member with earlier | added
            · exact overlapping.merges other earlier
            · rw [List.mem_singleton.mp added]
              exact (publishMerge_ok returned).1.trans rowProcessing }
      have read : (system.callbacks transaction).row? = some (message, row) := by
        rw [phase]
        rfl
      exact logged.keepRow read rfl
  | @reportCommitted transaction message row phase =>
      rcases phase with phase | phase
      · exact overlapping.commit one (by rw [phase]; rfl) (by rw [phase]; rfl)
      · exact overlapping.commit one (by rw [phase]; rfl) (by rw [phase]; rfl)
  | @dropped event transaction cause =>
      rcases cause with rfl | ⟨message, row, phase⟩
      · exact statement.elim
      · apply overlapping.advance
        · exact fun _ => nofun
        · exact fun _ _ => nofun
        · rw [phase]
          exact fun _ => CallbackPhase.noConfusion
        · exact fun _ => CallbackPhase.noConfusion
  | _ => exact statement.elim

end OnePerWorker

/-! ### The decision leaves a trace -/

/-- Some transaction has found all rows done, or a merge is out. -/
def Decided (system : System) : Prop :=
  system.mergeMessages ≠ [] ∨
    ∃ transaction message row, system.callbacks transaction = .queried message row true

def FindsAllDone (system : System) (event : Event) : Prop :=
  ∃ transaction message row, event = .query transaction ∧
    system.callbacks transaction = .flushed message row ∧
    allDone (system.view message row) message.processingId = true

private theorem Decided.of_setCallback {system : System} {transaction : ℕ} {phase : CallbackPhase}
    (decided : Decided (system.setCallback transaction phase))
    (plain : ∀ message row, phase ≠ .queried message row true) : Decided system := by
  rcases decided with published | ⟨other, message, row, current⟩
  · exact Or.inl published
  · change Function.update system.callbacks transaction phase other = _ at current
    by_cases same : other = transaction
    · rw [same, Function.update_self] at current
      exact absurd current (plain message row)
    · rw [Function.update_of_ne same] at current
      exact Or.inr ⟨other, message, row, current⟩

theorem Transition.decided {system next : System} {event : Event}
    (transition : Transition system event next) (decided : Decided next) :
    Decided system ∨ FindsAllDone system event := by
  cases transition with
  | @queried transaction message row phase =>
      cases complete : allDone (system.view message row) message.processingId with
      | false =>
          rw [complete] at decided
          exact Or.inl (decided.of_setCallback (fun _ _ same => by cases same))
      | true => exact Or.inr ⟨transaction, message, row, rfl, phase, complete⟩
  | mergePublished phase returned => exact Or.inl (Or.inr ⟨_, _, _, phase⟩)
  | reportCommitted phase =>
      have before := decided.of_setCallback (fun _ _ => CallbackPhase.noConfusion)
      exact Or.inl before
  | delivered idle published =>
      exact Or.inl (decided.of_setCallback (fun _ _ => CallbackPhase.noConfusion))
  | missing phase absent =>
      exact Or.inl (decided.of_setCallback (fun _ _ => CallbackPhase.noConfusion))
  | loaded phase found =>
      exact Or.inl (decided.of_setCallback (fun _ _ => CallbackPhase.noConfusion))
  | flushed phase =>
      exact Or.inl (decided.of_setCallback (fun _ _ => CallbackPhase.noConfusion))
  | dropped cause =>
      exact Or.inl (decided.of_setCallback (fun _ _ => CallbackPhase.noConfusion))
  | _ => exact Or.inl decided

/-- The transaction has decided to publish; it publishes, or it never commits. -/
def WillPublish (transaction : ℕ) (system : System) : Prop :=
  system.mergeMessages ≠ [] ∨ system.callbacks transaction = .idle ∨
    ∃ message row, system.callbacks transaction = .queried message row true

theorem WillPublish.setCallback {transaction : ℕ} {system : System}
    (will : WillPublish transaction system) (other : ℕ) (phase : CallbackPhase)
    (passive : system.callbacks other ≠ .idle ∧
      ∀ message row, system.callbacks other ≠ .queried message row true) :
    WillPublish transaction (system.setCallback other phase) := by
  by_cases same : other = transaction
  · subst same
    rcases will with published | idle | ⟨message, row, queried⟩
    · exact Or.inl published
    · exact absurd idle passive.1
    · exact absurd queried (passive.2 message row)
  · have unchanged : (system.setCallback other phase).callbacks transaction =
        system.callbacks transaction := Function.update_of_ne (Ne.symm same) _ _
    unfold WillPublish
    rw [unchanged]
    exact will

private theorem Transition.willPublish {transaction : ℕ} {system next : System} {event : Event}
    (transition : Transition system event next) (statement : event.OfCallback)
    (will : WillPublish transaction system) : WillPublish transaction next := by
  cases transition with
  | giveUp handler => exact will
  | missing phase absent =>
      apply will.setCallback
      rw [phase]
      exact ⟨CallbackPhase.noConfusion, fun _ _ => CallbackPhase.noConfusion⟩
  | loaded phase found =>
      apply will.setCallback
      rw [phase]
      exact ⟨CallbackPhase.noConfusion, fun _ _ => CallbackPhase.noConfusion⟩
  | flushed phase =>
      apply will.setCallback
      rw [phase]
      exact ⟨CallbackPhase.noConfusion, fun _ _ => CallbackPhase.noConfusion⟩
  | queried phase =>
      apply will.setCallback
      rw [phase]
      exact ⟨CallbackPhase.noConfusion, fun _ _ => CallbackPhase.noConfusion⟩
  | mergePublished phase returned => exact Or.inl (List.append_ne_nil_of_right_ne_nil _ (by simp))
  | @reportCommitted other message row phase =>
      have passive : system.callbacks other ≠ .idle ∧
          ∀ message row, system.callbacks other ≠ .queried message row true := by
        rcases phase with phase | phase
        · rw [phase]
          exact ⟨CallbackPhase.noConfusion, fun _ _ same => by cases same⟩
        · rw [phase]
          exact ⟨CallbackPhase.noConfusion, fun _ _ => CallbackPhase.noConfusion⟩
      have moved := will.setCallback other (.committed message) passive
      exact moved
  | @dropped event other cause =>
      by_cases same : other = transaction
      · subst same
        exact Or.inr (Or.inl (Function.update_self _ _ _))
      · have unchanged : (system.setCallback other .idle).callbacks transaction =
            system.callbacks transaction := Function.update_of_ne (Ne.symm same) _ _
        unfold WillPublish
        rw [unchanged]
        exact will
  | _ => exact statement.elim

/-- A transaction asks for the states after all the others have committed. -/
def AsksLast (messages : List EchoWorkerCallbackMessage) (system : System) : Event → Prop
  | .query transaction => ∀ other received, other ≠ transaction →
      messages[other]? = some received → system.callbacks other = .committed received
  | _ => False

section Runs

variable {db : Database} {processingId : String} {messages : List EchoWorkerCallbackMessage}
  {events : List Event} {system : System}

private theorem overlapping_of_runs (one : OnePerWorker db processingId messages)
    (statements : ∀ event ∈ events, event.OfCallback)
    (reached : sessions.Runs (System.withCallbacks db messages) events system) :
    Overlapping db processingId messages system := by
  have every : sessions.EveryStep (fun _ event => event.OfCallback)
      (System.withCallbacks db messages) events :=
    sessions.everyStep_of_forall _ (fun event member _ => statements event member)
  exact reached.invariant_of_everyStep
    (fun _ _ _ overlapping statement stepped =>
      (step_transition stepped).overlapping statement one overlapping)
    (Overlapping.initial one) every

theorem Overlapping.query_decides {next : System}
    (overlapping : Overlapping db processingId messages system)
    (one : OnePerWorker db processingId messages) {transaction : ℕ}
    (stepped : sessions.step system (.query transaction) = some next)
    (last : AsksLast messages system (.query transaction)) :
    ∃ message, messages[transaction]? = some message ∧ WillPublish transaction next := by
  change system.query transaction = some next at stepped
  unfold System.query at stepped
  split at stepped
  · rename_i message row phase
    have complete := (overlapping.complete_iff one phase).mpr last
    rw [complete] at stepped
    cases stepped
    refine ⟨message, overlapping.carries transaction message (by rw [phase]; rfl), ?_⟩
    exact Or.inr (Or.inr ⟨message, row, Function.update_self _ _ _⟩)
  · cases stepped

theorem undecided_withCallbacks (db : Database) (messages : List EchoWorkerCallbackMessage) :
    ¬Decided (System.withCallbacks db messages) := by
  rintro (published | ⟨transaction, message, row, current⟩)
  · exact published rfl
  · have read := congrArg CallbackPhase.row? current
    rw [(withCallbacks_waiting db messages transaction).1] at read
    cases read

theorem exists_asksLast_of_published (one : OnePerWorker db processingId messages)
    (statements : ∀ event ∈ events, event.OfCallback)
    (reached : sessions.Runs (System.withCallbacks db messages) events system)
    (published : system.mergeMessages ≠ []) :
    ∃ before event after state, events = before ++ event :: after ∧
      sessions.Runs (System.withCallbacks db messages) before state ∧
      AsksLast messages state event := by
  obtain ⟨before, event, after, state, split, toState, transaction, message, row, rfl, phase,
      complete⟩ :=
    reached.cause_of_mark
      (fun _ _ _ stepped decided => (step_transition stepped).decided decided)
      (undecided_withCallbacks db messages) (Or.inl published)
  refine ⟨before, _, after, state, split, toState, ?_⟩
  have overlapping := overlapping_of_runs one
    (fun event eventMember => statements event (split ▸ List.mem_append_left _ eventMember))
    toState
  exact (overlapping.complete_iff one phase).mp complete

theorem published_of_willPublish {start : System} {transaction : ℕ}
    {message : EchoWorkerCallbackMessage} (statements : ∀ event ∈ events, event.OfCallback)
    (will : WillPublish transaction start) (reached : sessions.Runs start events system)
    (committed : system.callbacks transaction = .committed message) :
    system.mergeMessages ≠ [] := by
  have atEnd : WillPublish transaction system :=
    reached.invariant_of_everyStep
      (fun _ _ _ holds statement step => (step_transition step).willPublish statement holds) will
      (sessions.everyStep_of_forall start (fun event member _ => statements event member))
  rcases atEnd with published | idle | ⟨other, row, queried⟩
  · exact published
  · rw [committed] at idle
    cases idle
  · rw [committed] at queried
    cases queried

/-- Once all overlapping transactions have committed, a merge was published if and only if
one of them asked for the states after all the others had committed. -/
theorem merge_published_iff_one_asks_last (one : OnePerWorker db processingId messages)
    (statements : ∀ event ∈ events, event.OfCallback)
    (reached : sessions.Runs (System.withCallbacks db messages) events system)
    (completed : ∀ transaction message, messages[transaction]? = some message →
      system.callbacks transaction = .committed message) :
    (∃ merge ∈ system.mergeMessages, merge.processingId = processingId) ↔
      ∃ before event after state, events = before ++ event :: after ∧
        sessions.Runs (System.withCallbacks db messages) before state ∧
        AsksLast messages state event := by
  constructor
  · rintro ⟨merge, member, _⟩
    exact exists_asksLast_of_published one statements reached (List.ne_nil_of_mem member)
  · rintro ⟨before, event, after, state, rfl, toState, last⟩
    cases event with
    | query transaction =>
        obtain ⟨next, stepped, toNext⟩ := reached.step_of_split toState
        have overlapping := overlapping_of_runs one
          (fun event member => statements event (List.mem_append_left _ member)) toState
        obtain ⟨message, own, will⟩ := overlapping.query_decides one stepped last
        have parts := reached
        rw [List.append_cons, sessions.runs_append] at parts
        obtain ⟨middle, toMiddle, onward⟩ := parts
        obtain rfl : middle = next := toMiddle.unique toNext
        have published := published_of_willPublish
          (fun event member => statements event
            (List.mem_append_right _ (List.mem_cons_of_mem _ member)))
          will onward (completed transaction message own)
        obtain ⟨merge, member⟩ := List.exists_mem_of_ne_nil _ published
        exact ⟨merge, member, (overlapping_of_runs one statements reached).merges merge member⟩
    | _ => exact last.elim

end Runs

namespace Sample

open Orchestrator.Sample (workerMessage)

def processingRow (workerId : String) : EchoWorker :=
  { processingId := "p"
    workerId := workerId
    state := .processing
    imageURL := "/in.tif"
    tileSizeX := 2000
    tileSizeY := 2000
    geoTransform := workerMessage.geoTransform
    tileURL := none }

def callbackOf (workerId : String) : EchoWorkerCallbackMessage :=
  { processingId := "p"
    workerId := workerId
    imageURL := Image.tileURL "p" workerId
    trackerTotalWorkers := some 2 }

def twoProcessing : Database :=
  { orchestrators :=
      { rows := [EchoOrchestratorService.newOrchestrator "p" "/in.tif" 4000 2000
          workerMessage.geoTransform]
        unique := by decide }
    workers :=
      { rows := [processingRow "w", processingRow "x"]
        unique := by decide } }

def twoCallbacks : List EchoWorkerCallbackMessage :=
  [callbackOf "w", callbackOf "x"]

private theorem onePerWorker_twoCallbacks : OnePerWorker twoProcessing "p" twoCallbacks :=
  { nonempty := by decide +kernel
    processing := by decide +kernel
    sameProcessing := by decide
    workers := by decide }

/-- The second transaction starts after the first one has committed. -/
def oneByOne : List Event :=
  [.read 0, .write 0, .query 0, .commit 0,
    .read 1, .write 1, .query 1, .publish 1 .insertionOrder, .commit 1]

/-- Each transaction asks for the states before the other one has committed. -/
def allAtOnce : List Event :=
  [.read 0, .read 1, .write 0, .write 1, .query 0, .query 1, .commit 0, .commit 1]

private theorem ofCallback_oneByOne : ∀ event ∈ oneByOne, event.OfCallback := by
  simp [oneByOne, Event.OfCallback]

private theorem ofCallback_allAtOnce : ∀ event ∈ allAtOnce, event.OfCallback := by
  simp [allAtOnce, Event.OfCallback]

private theorem completed_of_phases {system : System}
    (phases : [system.callbacks 0, system.callbacks 1] =
      [.committed (callbackOf "w"), .committed (callbackOf "x")]) :
    ∀ transaction message, twoCallbacks[transaction]? = some message →
      system.callbacks transaction = .committed message := by
  simp only [List.cons.injEq, and_true] at phases
  intro transaction message index
  match transaction with
  | 0 => exact Option.some.inj index ▸ phases.1
  | 1 => exact Option.some.inj index ▸ phases.2
  | _ + 2 => cases index

end Sample

theorem merge_published_iff_one_asks_last_one_by_one :
    ∃ before event after state, Sample.oneByOne = before ++ event :: after ∧
      sessions.Runs (System.withCallbacks Sample.twoProcessing Sample.twoCallbacks) before state ∧
      AsksLast Sample.twoCallbacks state event := by
  have observed : (sessions.run (System.withCallbacks Sample.twoProcessing Sample.twoCallbacks)
      Sample.oneByOne).map (fun system =>
        ([system.callbacks 0, system.callbacks 1],
          system.mergeMessages.map EchoMergeMessage.processingId)) =
      some ([.committed (Sample.callbackOf "w"), .committed (Sample.callbackOf "x")], ["p"]) := by
    decide +kernel
  obtain ⟨system, reached, values⟩ := Option.map_eq_some_iff.mp observed
  obtain ⟨phases, merges⟩ := Prod.mk.inj values
  have listed : "p" ∈ system.mergeMessages.map EchoMergeMessage.processingId := by
    rw [merges]
    exact List.mem_singleton_self "p"
  exact (merge_published_iff_one_asks_last Sample.onePerWorker_twoCallbacks
    Sample.ofCallback_oneByOne reached (Sample.completed_of_phases phases)).mp
    (List.mem_map.mp listed)

/-- Two overlapping callbacks commit, all workers are done, and no merge was published. -/
theorem overlapping_callbacks_publish_no_merge :
    ∃ system, OnePerWorker Sample.twoProcessing "p" Sample.twoCallbacks ∧
      sessions.Runs (System.withCallbacks Sample.twoProcessing Sample.twoCallbacks)
        Sample.allAtOnce system ∧
      (∀ event ∈ Sample.allAtOnce, event.OfCallback) ∧
      (∀ transaction message, Sample.twoCallbacks[transaction]? = some message →
        system.callbacks transaction = .committed message) ∧
      (ofProcessing system.db "p").map EchoWorker.state = [.done, .done] ∧
      ¬∃ merge ∈ system.mergeMessages, merge.processingId = "p" := by
  have observed : (sessions.run (System.withCallbacks Sample.twoProcessing Sample.twoCallbacks)
      Sample.allAtOnce).map (fun system =>
        ([system.callbacks 0, system.callbacks 1], system.mergeMessages)) =
      some ([.committed (Sample.callbackOf "w"), .committed (Sample.callbackOf "x")], []) := by
    decide +kernel
  have states : (sessions.run (System.withCallbacks Sample.twoProcessing Sample.twoCallbacks)
      Sample.allAtOnce).map (fun system => (ofProcessing system.db "p").map EchoWorker.state) =
      some [.done, .done] := by
    decide +kernel
  obtain ⟨system, reached, values⟩ := Option.map_eq_some_iff.mp observed
  obtain ⟨phases, merges⟩ := Prod.mk.inj values
  rw [reached, Option.map_some] at states
  refine ⟨system, Sample.onePerWorker_twoCallbacks, reached, Sample.ofCallback_allAtOnce,
    Sample.completed_of_phases phases, Option.some.inj states, ?_⟩
  rw [merges]
  rintro ⟨merge, member, _⟩
  cases member

end EchoProcessing.Orchestrator.Sessions
