import ModuleTyping.Lowering.Basic

/-!
# Lowering patterns

A pattern is lowered against the type of the values it is matched with, and binds its
variables in the innermost scope. A name that is a constructor without fields is that
constructor and binds nothing.
-/

namespace ModuleTyping.Lower

/-- The signature of a constructor as a pattern for values of type `scrutinee` uses it with
so many fields. -/
def constructorFor (name : String) (fieldCount : Nat) (scrutinee : Ty) (origin : Origin) :
    Lower Signature := do
  match (← env).constructors.signatureFor? name scrutinee with
  | none => fail (.unknownConstructor name) origin
  | some sig =>
    check (Check.compatible sig.result scrutinee s!"pattern {Cause.quote name}" origin)
    if fieldCount = sig.params.length then return sig
    else fail (.arity (.constructor name) sig.params.length fieldCount) origin

mutual

/-- Lowers a pattern for values of type `scrutinee`. -/
def lowerPattern (origin : Origin) : Source.Pattern → Ty → Lower Typed.Pattern
  | .wildcard, _ => return .wildcard
  | .bind name, scrutinee => do
    if (← env).constructors.isNullary name then
      let _ ← constructorFor name 0 scrutinee origin
      return .constructor name [] scrutinee
    else
      bind name scrutinee
      return .bind name scrutinee
  | .literal value, scrutinee => do
    check (Check.compatible value.ty scrutinee "pattern literal" origin)
    return .literal value
  | .constructor name fields, scrutinee => do
    let sig ← constructorFor name fields.length scrutinee origin
    let fields ← lowerFields origin fields sig.params
    return .constructor name fields scrutinee
  | .or alternatives, scrutinee => do
    return .or (← lowerAlternatives origin alternatives scrutinee)

/-- Lowers the patterns for a constructor's fields. -/
def lowerFields (origin : Origin) : List Source.Pattern → List Ty → Lower (List Typed.Pattern)
  | pattern :: patterns, ty :: tys => do
    let pattern ← lowerPattern origin pattern ty
    return pattern :: (← lowerFields origin patterns tys)
  | _, _ => return []

/-- Lowers alternatives, all for values of the same type. -/
def lowerAlternatives (origin : Origin) :
    List Source.Pattern → Ty → Lower (List Typed.Pattern)
  | [], _ => return []
  | pattern :: patterns, scrutinee => do
    let pattern ← lowerPattern origin pattern scrutinee
    return pattern :: (← lowerAlternatives origin patterns scrutinee)

end

end ModuleTyping.Lower
