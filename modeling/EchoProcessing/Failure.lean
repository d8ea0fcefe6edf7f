/-
The exceptions that the modelled services throw.

A listener that ends with one of these does not acknowledge its message, so the
broker delivers it again; a transaction that ends with one is rolled back.
-/

namespace EchoProcessing

inductive Failure where
  | nullPointer
  | arithmetic (message : String)
  | illegalArgument (message : String)
  | illegalState (message : Option String)
  /-- A unique index refused an insertion. -/
  | dataIntegrityViolation
deriving DecidableEq, Repr

end EchoProcessing
