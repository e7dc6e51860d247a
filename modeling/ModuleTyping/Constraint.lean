import ModuleTyping.Fault
import ModuleTyping.Text.Blank
import ModuleTyping.Ty.Names

/-!
# Constraints on type parameters

A type parameter may carry the name of a constraint, which admits some types only. Types
that are still open are not held against it.
-/

namespace ModuleTyping

/-- The type meets the constraint, or it is still open. -/
def Ty.satisfies (ty : Ty) (constraint : String) : Bool :=
  ty.hasVars || ty.isAuto ||
    match constraintMembers? constraint with
    | some members => members.contains ty.normalName
    | none => false

namespace Constraint

/-- Wants a constraint of that name. -/
def known (constraint : String) : Except Cause Unit :=
  match constraintMembers? constraint with
  | some _ => .ok ()
  | none => .error (.unknownConstraint constraint)

/-- A constraint as it was written, without the blanks around it; a blank one is none. -/
def written? (constraint : Option String) : Option String :=
  match constraint with
  | none => none
  | some text =>
    match Text.trim text.toList with
    | [] => none
    | trimmed => some (String.ofList trimmed)

end Constraint

namespace TypeParam

/-- The parameters with their constraints freed of blanks, all of them known. -/
def normalize : List TypeParam → Except Cause (List TypeParam)
  | [] => .ok []
  | param :: rest => do
    let constraint := Constraint.written? param.constraint
    if let some constraint := constraint then
      Constraint.known constraint
    let rest ← normalize rest
    return { param with constraint } :: rest

/-- Wants the type arguments of a declared type to meet its parameters' constraints. -/
def validate (declaration : String) : List TypeParam → List Ty → Except Cause Unit
  | param :: params, arg :: args => do
    if let some constraint := param.constraint then
      Constraint.known constraint
      unless arg.satisfies constraint do
        throw (.unsatisfiedConstraint arg constraint param.name (some declaration))
    validate declaration params args
  | _, _ => .ok ()

end TypeParam

end ModuleTyping
