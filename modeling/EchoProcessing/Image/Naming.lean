/-
The names of the images are apart.

The worker and the merger write into one directory and take a file that opens for their
own. The names are concatenations without escapes, so this rests on the shape of the ids:
in general two different pairs of ids have the same tile.
-/

import EchoProcessing.Image.Rendering

namespace EchoProcessing.Image

open Orchestrator SkipIfExists

def uuidSymbols : List Char := "0123456789abcdefABCDEF-".toList

/-- The form of what `UUID.toString` returns. -/
structure IsUuid (text : String) : Prop where
  length : text.length = 36
  symbols : ∀ symbol ∈ text.toList, symbol ∈ uuidSymbols

abbrev Uuid := { text : String // IsUuid text }

namespace UUID

def digits (value : ℕ) : ℕ → List Char
  | 0 => []
  | count + 1 => digits (value / 16) count ++ [Nat.digitChar (value % 16)]

/-- The two halves of the id are written in groups of 8, 4 and 4, and of 4 and 12 digits. -/
def toString (mostSigBits leastSigBits : BitVec 64) : String :=
  String.ofList
    (digits (mostSigBits.toNat >>> 32) 8 ++ '-' :: digits (mostSigBits.toNat >>> 16) 4 ++
      '-' :: digits mostSigBits.toNat 4 ++ '-' :: digits (leastSigBits.toNat >>> 48) 4 ++
      '-' :: digits leastSigBits.toNat 12)

private theorem length_digits (value count : ℕ) : (digits value count).length = count := by
  induction count generalizing value with
  | zero => rfl
  | succ count ih => rw [digits, List.length_append, ih, List.length_singleton]

private theorem digitChar_mem (value : ℕ) : Nat.digitChar (value % 16) ∈ uuidSymbols := by
  have every : ∀ digit : Fin 16, Nat.digitChar digit ∈ uuidSymbols := by decide
  exact every ⟨value % 16, Nat.mod_lt value (by decide)⟩

private theorem digits_symbols (value count : ℕ) :
    ∀ symbol ∈ digits value count, symbol ∈ uuidSymbols := by
  induction count generalizing value with
  | zero => exact fun _ => nofun
  | succ count ih =>
      intro symbol member
      rcases List.mem_append.mp member with earlier | last
      · exact ih (value / 16) symbol earlier
      · rw [List.mem_singleton.mp last]
        exact digitChar_mem value

theorem isUuid_toString (mostSigBits leastSigBits : BitVec 64) :
    IsUuid (toString mostSigBits leastSigBits) where
  length := by
    rw [toString, String.length_ofList]
    simp only [List.length_append, List.length_cons, length_digits]
  symbols := by
    have hyphen : '-' ∈ uuidSymbols := by decide
    rw [toString, String.toList_ofList]
    simp only [List.forall_mem_append, List.forall_mem_cons]
    exact ⟨⟨⟨⟨digits_symbols _ _, hyphen, digits_symbols _ _⟩, hyphen, digits_symbols _ _⟩,
      hyphen, digits_symbols _ _⟩, hyphen, digits_symbols _ _⟩

example : toString 0x123e4567e89b12d3 0xa456426614174000 =
    "123e4567-e89b-12d3-a456-426614174000" := by decide

end UUID

private theorem append_inj_of_length {left right leftRest rightRest : String}
    (length : left.length = right.length) (same : left ++ leftRest = right ++ rightRest) :
    left = right ∧ leftRest = rightRest := by
  have symbols := congrArg String.toList same
  rw [String.toList_append, String.toList_append] at symbols
  have lengths : left.toList.length = right.toList.length := by
    rw [String.length_toList, String.length_toList, length]
  obtain ⟨first, second⟩ := List.append_inj symbols lengths
  exact ⟨String.toList_inj.mp first, String.toList_inj.mp second⟩

/-- Processing ids of one length leave no doubt where the separator of the worker id is. -/
theorem tileURL_inj_of_length {left right leftWorker rightWorker : String}
    (length : left.length = right.length)
    (same : tileURL left leftWorker = tileURL right rightWorker) :
    left = right ∧ leftWorker = rightWorker := by
  have stems := (String.append_left_inj _).mp same
  have separated : (outDirectory ++ left ++ "_tile_").length =
      (outDirectory ++ right ++ "_tile_").length := by
    simp only [String.length_append, length]
  obtain ⟨heads, workers⟩ := append_inj_of_length separated stems
  have bodies := (String.append_left_inj _).mp heads
  exact ⟨(String.append_right_inj _).mp bodies, workers⟩

example : tileURL "p" "v_tile_w" = tileURL "p_tile_v" "w" := by decide

theorem resultURL_inj {left right : String} (same : resultURL left = resultURL right) :
    left = right :=
  (String.append_right_inj _).mp ((String.append_left_inj _).mp same)

private theorem eq_of_append_of_length {left right leftRest rightRest : String}
    (length : leftRest.length = rightRest.length)
    (same : left ++ leftRest = right ++ rightRest) : leftRest = rightRest := by
  have total := congrArg String.length same
  rw [String.length_append, String.length_append] at total
  have heads : left.length = right.length := by omega
  exact (append_inj_of_length heads same).2

theorem tileURL_ne_resultURL (processingId workerId other : String) :
    tileURL processingId workerId ≠ resultURL other := by
  intro same
  have split : "_result.vrt" = "_result" ++ ".vrt" := by decide
  rw [tileURL, resultURL, split, ← String.append_assoc] at same
  have extensions : ".tif" = ".vrt" := eq_of_append_of_length (by decide) same
  exact absurd extensions (by decide)

/-- The executions of the workers and of the merger, which share the directory. -/
def imageJob (dataLocal : Bool) : Job (EchoWorkerMessage ⊕ EchoMergeMessage) String GdalCall :=
  { target := Sum.elim (workerJob dataLocal).target (mergerJob dataLocal).target
    program := Sum.elim (workerJob dataLocal).program (mergerJob dataLocal).program }

/-- The ids from which the name is made. -/
def HasUuids : EchoWorkerMessage ⊕ EchoMergeMessage → Prop
  | .inl message => IsUuid message.processingId ∧ IsUuid message.workerId
  | .inr message => IsUuid message.processingId

/-- Two messages about the tile of one worker, or about the result of one processing. -/
def SameImage : EchoWorkerMessage ⊕ EchoMergeMessage → EchoWorkerMessage ⊕ EchoMergeMessage → Prop
  | .inl left, .inl right =>
      left.processingId = right.processingId ∧ left.workerId = right.workerId
  | .inr left, .inr right => left.processingId = right.processingId
  | _, _ => False

private theorem sameImage_of_target (dataLocal : Bool)
    {left right : EchoWorkerMessage ⊕ EchoMergeMessage} (leftIds : HasUuids left)
    (rightIds : HasUuids right)
    (same : (imageJob dataLocal).target left = (imageJob dataLocal).target right) :
    SameImage left right := by
  cases left with
  | inl tile =>
      cases right with
      | inl other =>
          have length := leftIds.1.length.trans rightIds.1.length.symm
          exact tileURL_inj_of_length length same
      | inr result => exact tileURL_ne_resultURL _ _ _ same
  | inr result =>
      cases right with
      | inl tile => exact tileURL_ne_resultURL _ _ _ same.symm
      | inr other => exact resultURL_inj same

/-- Whoever has written the file that a test opens was given a message about its image. -/
def OwnFile (dataLocal : Bool)
    (events : List (SkipIfExists.Event (EchoWorkerMessage ⊕ EchoMergeMessage)))
    (state : State (EchoWorkerMessage ⊕ EchoMergeMessage) String GdalCall) : Prop :=
  ∀ execution message, state.phases execution = .delivered message →
    ∀ mark ∈ state.history ((imageJob dataLocal).target message),
      ∃ writer, Delivered events mark.execution writer ∧ SameImage writer message

/-- No two images share a name, so no test is answered by the file of another image. -/
theorem output_names_never_collide (dataLocal : Bool) :
    Function.Injective (fun ids : Uuid × Uuid => tileURL ids.1 ids.2) ∧
    Function.Injective (fun processingId : Uuid => resultURL processingId) ∧
    (∀ processingId workerId other : Uuid, tileURL processingId workerId ≠ resultURL other) ∧
    ∀ events state, (imageJob dataLocal).machine.Runs State.initial events state →
      (∀ execution message, Delivered events execution message → HasUuids message) →
      OwnFile dataLocal events state := by
  refine ⟨?_, ?_, ?_, ?_⟩
  · intro left right same
    have length := left.1.property.length.trans right.1.property.length.symm
    obtain ⟨processings, workers⟩ := tileURL_inj_of_length length same
    exact Prod.ext (Subtype.ext processings) (Subtype.ext workers)
  · intro left right same
    exact Subtype.ext (resultURL_inj same)
  · intro processingId workerId other
    exact tileURL_ne_resultURL processingId workerId other
  · intro events state reached ids execution message phase mark member
    have current : (state.phases execution).message? = some message := by
      rw [phase]
      rfl
    apply same_of_mem_history reached _ current member
    intro left right execution other given otherGiven same
    exact sameImage_of_target dataLocal (ids _ _ given) (ids _ _ otherGiven) same

namespace Sample

def tileMessage : EchoWorkerMessage :=
  { Orchestrator.Sample.workerMessage with
    processingId := UUID.toString 0 1
    workerId := UUID.toString 0 2 }

def renderedTwice : List (SkipIfExists.Event (EchoWorkerMessage ⊕ EchoMergeMessage)) :=
  calls 0 (.inl tileMessage) 7 ++ [.report 0, .deliver 1 (.inl tileMessage)]

end Sample

theorem output_names_never_collide_second_delivery :
    ∃ state, (imageJob true).machine.Runs State.initial Sample.renderedTwice state ∧
      OwnFile true Sample.renderedTwice state := by
  have enabled : ((imageJob true).machine.run State.initial Sample.renderedTwice).isSome = true :=
    by decide
  have reached := Machine.runs_get _ enabled
  refine ⟨_, reached, (output_names_never_collide true).2.2.2 _ _ reached ?_⟩
  intro execution message delivered
  have given : execution = 0 ∧ message = .inl Sample.tileMessage ∨
      execution = 1 ∧ message = .inl Sample.tileMessage := by
    simpa [Delivered, Sample.renderedTwice, Sample.calls] using delivered
  rw [given.elim And.right And.right]
  exact ⟨UUID.isUuid_toString 0 1, UUID.isUuid_toString 0 2⟩

end EchoProcessing.Image
