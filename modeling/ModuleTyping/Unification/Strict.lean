import ModuleTyping.Fault
import ModuleTyping.Substitution
import ModuleTyping.Ty.Names

/-!
# Unification of call arguments

While the type parameters of a call are worked out, two arguments that disagree on a
variable are an error of the program, and unification fails with the conflict. A binding
only ever gets firmer: a variable gives way to any type, a type gives way to one of the
same name that is no less concrete, and numeric types are not told apart.
-/

namespace ModuleTyping

/-- A type variable bound to two types that cannot be reconciled. -/
structure Conflict where
  varName : String
  first : Ty
  second : Ty

/-- The cause a conflict leads to. -/
def Conflict.cause (conflict : Conflict) : Cause :=
  .inconsistentBinding conflict.varName conflict.first conflict.second

namespace Ty

/-- The two types may share one binding: they have the same name, or both are numeric. -/
def shareable (a b : Ty) : Bool :=
  a.normalName == b.normalName || (a.isNumeric && b.isNumeric)

/-- Binds a variable to `actual`, or squares `actual` with the binding it has. -/
def bindVar (bindings : Bindings) (name : String) (actual : Ty) : Except Conflict Unit × Bindings :=
  match bindings.get? name with
  | none => (.ok (), bindings.insert name actual)
  | some existing =>
    if existing.isVar then (.ok (), bindings.insert name actual)
    else if actual.isVar then (.ok (), bindings)
    else if existing.name = actual.name then
      if existing.concreteness ≤ actual.concreteness then (.ok (), bindings.insert name actual)
      else (.ok (), bindings)
    else if existing.shareable actual then (.ok (), bindings)
    else (.error ⟨name, existing, actual⟩, bindings)

mutual

/-- Unifies a parameter's type with an argument's. Shapes that differ are passed over: they
are for the later comparison of the argument with the parameter to reject. -/
def unify (bindings : Bindings) : Ty → Ty → Except Conflict Unit × Bindings
  | var name _, actual => bindVar bindings name actual
  | generic base args, generic actualBase actualArgs =>
    match base.unify bindings actualBase with
    | (.ok (), bindings) => unifyAll bindings args actualArgs
    | failed => failed
  | array element, array actual => element.unify bindings actual
  | ref referent, ref actual => referent.unify bindings actual
  | mutRef referent, mutRef actual => referent.unify bindings actual
  | function params result, function actualParams actualResult =>
    match unifyAll bindings params actualParams with
    | (.ok (), bindings) => result.unify bindings actualResult
    | failed => failed
  | map key value, map actualKey actualValue =>
    match key.unify bindings actualKey with
    | (.ok (), bindings) => value.unify bindings actualValue
    | failed => failed
  | _, _ => (.ok (), bindings)

/-- Unifies the types in each place that both lists have, up to the first conflict. -/
def unifyAll (bindings : Bindings) : List Ty → List Ty → Except Conflict Unit × Bindings
  | pattern :: patterns, actual :: actuals =>
    match pattern.unify bindings actual with
    | (.ok (), bindings) => unifyAll bindings patterns actuals
    | failed => failed
  | _, _ => (.ok (), bindings)

end

end Ty

end ModuleTyping
