import ModuleTyping.Check
import ModuleTyping.Constraint
import ModuleTyping.Unification.Strict

/-!
# Instantiating generic signatures

A call of a generic function binds its type parameters: first from the arguments, then,
where they leave a parameter open, from the type the context expects. The bindings must
meet the parameters' constraints, and with the bindings put in, the arguments must be
usable as the parameters.
-/

namespace ModuleTyping

/-- A signature as one call uses it: the bindings of its type parameters, and its
parameter and result types under them. -/
structure Instantiation where
  bindings : Bindings
  params : List Ty
  result : Ty

namespace Instantiation

/-- Binds type parameters from the arguments, in order. A conflict is announced as a
mismatch of the argument it came up at, whose number in the call is `number`. -/
def bindArguments (name : String) (origin : Origin) :
    Nat → Bindings → List Ty → List Ty → Check Bindings
  | number, bindings, param :: params, arg :: args =>
    match param.unify bindings arg with
    | (.ok (), bindings) => bindArguments name origin (number + 1) bindings params args
    | (.error conflict, bindings) => do
      Check.announce {
        context := Check.argumentContext name number
        expected := (param.subst bindings).text
        actual := arg.text
        origin }
      Check.fail conflict.cause origin
  | _, bindings, _, _ => pure bindings

/-- Every type parameter is bound to something other than a variable. -/
def isComplete (sig : Signature) (bindings : Bindings) : Bool :=
  sig.typeParams.all fun param =>
    match bindings.get? param.name with
    | some bound => !bound.isVar
    | none => false

/-- Binds parameters that are still open from the type the context expects, if that can be
done without a conflict. -/
def refine (sig : Signature) (expected : Option Ty) (bindings : Bindings) : Bindings :=
  match expected with
  | none => bindings
  | some expected =>
    if isComplete sig bindings then bindings
    else
      match sig.result.unify bindings expected with
      | (.ok (), refined) => refined
      | (.error _, _) => bindings

/-- Wants each bound type parameter to meet its constraint. -/
def checkConstraints (bindings : Bindings) (origin : Origin) : List TypeParam → Check Unit
  | [] => pure ()
  | param :: rest => do
    match param.constraint, bindings.get? param.name with
    | some constraint, some bound =>
      unless bound.satisfies constraint do
        Check.fail (.unsatisfiedConstraint bound constraint param.name none) origin
    | _, _ => pure ()
    checkConstraints bindings origin rest

/-- Works out one call of a function, under the name it is called by. -/
def solve (sig : Signature) (args : List Ty) (name : String) (expected : Option Ty)
    (origin : Origin) : Check Instantiation := do
  if sig.isGeneric then
    unless args.length = sig.params.length do
      Check.fail (.arity (.function name) sig.params.length args.length) origin
    let bound ← bindArguments name origin 1 ∅ sig.params args
    let bindings := refine sig expected bound
    checkConstraints bindings origin sig.typeParams
    let params := sig.params.map (·.subst bindings)
    Check.arguments (Check.argumentContext name) origin 1 args params
    return { bindings, params, result := sig.result.subst bindings }
  else
    Check.call sig args name origin
    return { bindings := ∅, params := sig.params, result := sig.result }

end Instantiation

end ModuleTyping
