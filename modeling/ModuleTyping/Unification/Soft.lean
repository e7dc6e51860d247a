import ModuleTyping.Substitution
import ModuleTyping.Ty.Names

/-!
# Trial unification

Trial unification asks whether a type fits a pattern, and binds the pattern's variables
on the way. It fails without a fault, so that several candidates can be tried. Bindings
made before a failure stay: whoever tries candidates starts each with bindings of its own.
-/

namespace ModuleTyping

namespace Ty

mutual

/-- Fits `actual` to the pattern. A variable that is bound already must be bound to an
equivalent type; one that is not is bound now. -/
def fit (bindings : Bindings) : Ty → Ty → Bool × Bindings
  | var name _, actual =>
    match bindings.get? name with
    | some bound => (bound.equivalent actual, bindings)
    | none => (true, bindings.insert name actual)
  | generic base args, generic actualBase actualArgs =>
    if base.name = actualBase.name ∧ args.length = actualArgs.length then
      fitAll bindings args actualArgs
    else (false, bindings)
  | generic _ _, _ => (false, bindings)
  | array element, array actual => element.fit bindings actual
  | array _, _ => (false, bindings)
  | pattern, actual => (pattern.equivalent actual, bindings)

/-- Fits the types in each place of the two lists, up to the first that does not fit. -/
def fitAll (bindings : Bindings) : List Ty → List Ty → Bool × Bindings
  | pattern :: patterns, actual :: actuals =>
    match pattern.fit bindings actual with
    | (true, bindings) => fitAll bindings patterns actuals
    | (false, bindings) => (false, bindings)
  | _, _ => (true, bindings)

end

end Ty

namespace Signature

/-- Bindings under which the signature's result fits `scrutinee`; none at all when it does
not fit. -/
def bindingsFor (sig : Signature) (scrutinee : Ty) : Bindings :=
  match sig.result.fit ∅ scrutinee with
  | (true, bindings) => bindings
  | (false, _) => ∅

/-- A constructor's signature as it reads for values of type `scrutinee`. -/
def specialize (sig : Signature) (scrutinee : Ty) : Signature :=
  let bindings := sig.bindingsFor scrutinee
  if bindings.size = 0 then sig
  else
    { sig with
      params := sig.params.map (·.subst bindings)
      result := sig.result.subst bindings }

end Signature

end ModuleTyping
