import ModuleTyping.Dict
import ModuleTyping.Ty.Basic

/-!
# Substitution

Bindings give types to type variables. Substituting them replaces the bound variables of
a type. `Ty.replaced?` rebuilds only what changes and says `none` for a type in which
nothing is replaced, so that the parts a substitution leaves alone are shared; `Ty.subst`
gives the type itself in that case.

Replacement reaches array elements, type arguments, function types, and the fields of
records and sums. References, maps, and the base of a generic application are left as
they are.
-/

namespace ModuleTyping

/-- Types for type variables, by the variables' names. -/
abbrev Bindings := Dict Ty

namespace Ty

mutual

/-- The type with its bound variables replaced, or `none` when none is. -/
def replaced? (bindings : Bindings) : Ty → Option Ty
  | var name constraint =>
    match bindings.get? name with
    | some bound => if bound.same (var name constraint) then none else some bound
    | none => none
  | array element => (element.replaced? bindings).map array
  | generic base args => (replacedAll? bindings args).map (generic base)
  | function params result =>
    match replacedAll? bindings params, result.replaced? bindings with
    | none, none => none
    | params', result' => some (function (params'.getD params) (result'.getD result))
  | record name fields => (replacedFields? bindings fields).map (record name)
  | sum name variants => (replacedVariants? bindings variants).map (sum name)
  | primitive _ => none
  | abstract _ => none
  | ref _ => none
  | mutRef _ => none
  | map _ _ => none
  | unit => none

/-- The types with bound variables replaced, or `none` when none is. -/
def replacedAll? (bindings : Bindings) : List Ty → Option (List Ty)
  | [] => none
  | ty :: rest =>
    match ty.replaced? bindings, replacedAll? bindings rest with
    | none, none => none
    | ty', rest' => some (ty'.getD ty :: rest'.getD rest)

/-- The fields with bound variables replaced, or `none` when none is. -/
def replacedFields? (bindings : Bindings) : List (String × Ty) → Option (List (String × Ty))
  | [] => none
  | (name, ty) :: rest =>
    match ty.replaced? bindings, replacedFields? bindings rest with
    | none, none => none
    | ty', rest' => some ((name, ty'.getD ty) :: rest'.getD rest)

/-- The variants with bound variables replaced, or `none` when none is. -/
def replacedVariants? (bindings : Bindings) :
    List (String × List Ty) → Option (List (String × List Ty))
  | [] => none
  | (name, tys) :: rest =>
    match replacedAll? bindings tys, replacedVariants? bindings rest with
    | none, none => none
    | tys', rest' => some ((name, tys'.getD tys) :: rest'.getD rest)

end

/-- The type with its bound variables replaced. -/
def subst (ty : Ty) (bindings : Bindings) : Ty :=
  (ty.replaced? bindings).getD ty

end Ty

end ModuleTyping
