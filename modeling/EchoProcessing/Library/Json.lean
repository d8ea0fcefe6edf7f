/-
JSON values and the binding of record types to them.

A codec writes the values of a type and reads back what it has written. A record is
written as an object with one member for each field and read member by member, so a
reader with fewer fields passes over the rest and a missing member reads as null.
-/

import Mathlib.Data.List.Basic
import Mathlib.Data.Rat.Defs

namespace EchoProcessing

universe u

inductive Json where
  | null
  | bool (value : Bool)
  | number (value : ℚ)
  | string (value : String)
  | array (elements : List Json)
  | object (members : List (String × Json))

namespace Json

/-- The last member of a name counts. -/
def member (json : Json) (name : String) : Json :=
  match json with
  | .object members => (members.reverse.lookup name).getD .null
  | _ => .null

@[simp]
theorem member_object (members : List (String × Json)) (name : String) :
    (object members).member name = (members.reverse.lookup name).getD .null := rfl

/-- How the values of a type are written, none of them as null, and how they are read. -/
structure Codec (α : Type u) where
  write : α → Json
  read : Json → Option α
  notNull : ∀ value, write value ≠ .null
  read_write : ∀ value, read (write value) = some value

namespace Codec

variable {α : Type u}

theorem write_injective (codec : Codec α) : Function.Injective codec.write := by
  intro left right same
  have read := congrArg codec.read same
  rw [codec.read_write, codec.read_write] at read
  exact Option.some.inj read

def string : Codec String :=
  { write := .string
    read := fun
      | .string value => some value
      | _ => none
    notNull := by
      intro value same
      cases same
    read_write := fun _ => rfl }

def rational : Codec ℚ :=
  { write := .number
    read := fun
      | .number value => some value
      | _ => none
    notNull := by
      intro value same
      cases same
    read_write := fun _ => rfl }

/-- A number with a fraction is not read as an integer. -/
def integer : Codec ℤ :=
  { write := fun value => .number value
    read := fun
      | .number value => if value.den = 1 then some value.num else none
      | _ => none
    notNull := by
      intro value same
      cases same
    read_write := fun _ => rfl }

/-- The constants of an enumeration, each by its name. -/
def enumeration (constants : List α) (name : α → String)
    (known : ∀ constant, constants.find? (fun other => name other = name constant) =
      some constant) : Codec α :=
  { write := fun constant => .string (name constant)
    read := fun
      | .string text => constants.find? (fun other => name other = text)
      | _ => none
    notNull := by
      intro value same
      cases same
    read_write := known }

def writeNullable (codec : Codec α) : Option α → Json
  | none => .null
  | some value => codec.write value

def readNullable (codec : Codec α) : Json → Option (Option α)
  | .null => some none
  | json => (codec.read json).map some

@[simp]
theorem readNullable_writeNullable (codec : Codec α) (value : Option α) :
    codec.readNullable (codec.writeNullable value) = some value := by
  cases value with
  | none => rfl
  | some present =>
      change codec.readNullable (codec.write present) = some (some present)
      have written := codec.notNull present
      have read := codec.read_write present
      cases json : codec.write present with
      | null => exact absurd json written
      | _ =>
          rw [json] at read
          simp only [readNullable, read, Option.map_some]

def readAll (codec : Codec α) : List Json → Option (List (Option α))
  | [] => some []
  | element :: rest => do
      let value ← codec.readNullable element
      let others ← readAll codec rest
      return value :: others

theorem readAll_map_writeNullable (codec : Codec α) (values : List (Option α)) :
    codec.readAll (values.map codec.writeNullable) = some values := by
  induction values with
  | nil => rfl
  | cons value rest ih =>
      simp only [List.map_cons, readAll, readNullable_writeNullable, ih, Option.bind_eq_bind,
        Option.bind_some, Option.pure_def]

/-- A list may have elements that are null. -/
def list (codec : Codec α) : Codec (List (Option α)) :=
  { write := fun values => .array (values.map codec.writeNullable)
    read := fun
      | .array elements => codec.readAll elements
      | _ => none
    notNull := by
      intro value same
      cases same
    read_write := codec.readAll_map_writeNullable }

attribute [simp] read_write

/-- A record is written as the object of its members. -/
def record (members : α → List (String × Json)) (read : Json → Option α)
    (read_members : ∀ value, read (.object (members value)) = some value) : Codec α :=
  { write := fun value => .object (members value)
    read := read
    notNull := by
      intro value same
      cases same
    read_write := read_members }

end Codec

end Json

end EchoProcessing
