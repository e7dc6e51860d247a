import ModuleTyping.Event
import ModuleTyping.Fault
import ModuleTyping.Ty.Names

/-!
# Checks

A check either passes or ends with a fault. Whenever it rejects a type it also announces
the mismatch, so that tools can follow what a pass rejects without reading its faults.
The announcements made are kept in order, also by a check that fails.

Types are compared by name. The comparison lets everything through that may still turn
out right: an undetermined type, a type variable, and a wanted type whose name looks like
a placeholder.
-/

namespace ModuleTyping

/-- A type found where another one was wanted. -/
structure Mismatch where
  context : String
  expected : String
  actual : String
  origin : Origin

/-- The event that announces a mismatch. -/
def Mismatch.event (mismatch : Mismatch) : Event Mismatch where
  name := "type_mismatch"
  level := .error
  payload := mismatch

/-- Computations that may end with a fault and that announce mismatches. -/
abbrev Check := ExceptT Fault (StateM (List Mismatch))

namespace Check

/-- Ends with a fault. -/
def fail {α : Type} (cause : Cause) (origin : Origin) : Check α :=
  throw { cause, origin }

/-- Announces a mismatch. -/
def announce (mismatch : Mismatch) : Check Unit :=
  modify (· ++ [mismatch])

/-- Announces a mismatch and ends with the fault that says the same. -/
def reject {α : Type} (context expected actual : String) (origin : Origin) : Check α := do
  announce { context, expected, actual, origin }
  fail (.typeMismatch context expected actual) origin

end Check

namespace Ty

/-- A value of type `actual` may stand where `expected` is wanted. -/
def usableAs (actual expected : Ty) : Bool :=
  expected.isAuto || expected.isVar || isPlaceholderName expected.normalName ||
    actual.isAuto || actual.normalName == expected.normalName

/-- A value of this type may stand where a truth value is wanted. -/
def usableAsBool (actual : Ty) : Bool :=
  actual.isVar || actual.isAuto || isPlaceholderName actual.normalName ||
    actual.normalName == "bool"

/-- A value of this type may stand where a number is wanted. -/
def usableAsNumber (actual : Ty) : Bool :=
  actual.isAuto || isPlaceholderName actual.normalName || actual.isNumeric

end Ty

namespace Check

/-- Wants `actual` where `expected` is called for. -/
def compatible (actual expected : Ty) (context : String) (origin : Origin) : Check Unit :=
  if actual.usableAs expected then pure () else reject context expected.text actual.text origin

/-- Wants a truth value. -/
def boolean (actual : Ty) (context : String) (origin : Origin) : Check Unit :=
  if actual.usableAsBool then pure () else reject context "bool" actual.text origin

/-- Wants a number. -/
def numeric (actual : Ty) (context : String) (origin : Origin) : Check Unit :=
  if actual.usableAsNumber then pure () else reject context "numeric type" actual.text origin

/-- Wants as many arguments as are expected. -/
def argumentCount (method : String) (found expected : Nat) (origin : Origin) : Check Unit :=
  if found = expected then pure () else fail (.arity (.method method) expected found) origin

/-- The context of an argument of a named function, counted from one. -/
def argumentContext (name : String) (number : Nat) : String :=
  s!"argument {number} of {Cause.quote name}"

/-- Wants each argument to be usable as its parameter. The arguments are numbered from
`number` in the contexts that `context` words. -/
def arguments (context : Nat → String) (origin : Origin) :
    Nat → List Ty → List Ty → Check Unit
  | number, arg :: args, param :: params => do
    compatible arg param (context number) origin
    arguments context origin (number + 1) args params
  | _, _, _ => pure ()

/-- Wants the right number of arguments of the right types for a function that is not
generic. -/
def call (sig : Signature) (args : List Ty) (name : String) (origin : Origin) : Check Unit :=
  if args.length = sig.params.length then
    arguments (argumentContext name) origin 1 args sig.params
  else fail (.arity (.function name) sig.params.length args.length) origin

end Check

end ModuleTyping
