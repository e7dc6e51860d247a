import ModuleTyping.Proofs.Dict
import ModuleTyping.Proofs.Ty.Substitution
import ModuleTyping.Ty.Names

/-!
# Types known by their names

Of a record or a sum that a module declares, nearly everything that is asked of a type can
be told from the name: what it holds is looked up in the table of types. So it makes next
to no difference whether a type that mentions it holds its declaration or just its name.
`Ty.erase` puts the name in place of the declaration, throughout a type, for the names that
a module is known to declare (`Outlines`). Erasure keeps names and variables, and
substituting before it comes to the same as substituting after it (`erase_subst`).

A declaration with open type variables is not erased by itself, since whether a type has
variables is asked of the type and not of its name. As the base of an application, where
nobody looks for variables, it is.
-/

namespace ModuleTyping

/-- What a name is declared as, as far as its uses can tell. -/
inductive Outline where
  | record (fields : List String)
  | sum
  deriving DecidableEq

/-- The names that are known to be declared, and as what. -/
abbrev Outlines := String → Option Outline

namespace Ty

/-- The type holds a declaration that its name tells. -/
def isTold (known : Outlines) : Ty → Bool
  | record name fields => known name = some (.record (fields.map Prod.fst))
  | sum name _ => known name = some .sum
  | _ => false

mutual

/-- The type with names in place of the declarations that they tell. -/
def erase (known : Outlines) : Ty → Ty
  | record name fields =>
    if isTold known (record name fields) && !hasVarsFields fields then abstract name
    else record name (eraseFields known fields)
  | sum name variants =>
    if isTold known (sum name variants) && !hasVarsVariants variants then abstract name
    else sum name (eraseVariants known variants)
  | generic base args =>
    generic (if base.isTold known then abstract base.name else base.erase known)
      (eraseAll known args)
  | array element => array (element.erase known)
  | function params result => function (eraseAll known params) (result.erase known)
  | ref referent => ref (referent.erase known)
  | mutRef referent => mutRef (referent.erase known)
  | map key value => map (key.erase known) (value.erase known)
  | primitive name => primitive name
  | var name constraint => var name constraint
  | abstract name => abstract name
  | unit => unit

/-- The types with names in place of declarations. -/
def eraseAll (known : Outlines) : List Ty → List Ty
  | [] => []
  | ty :: rest => ty.erase known :: eraseAll known rest

/-- The fields with names in place of declarations. -/
def eraseFields (known : Outlines) : List (String × Ty) → List (String × Ty)
  | [] => []
  | (name, ty) :: rest => (name, ty.erase known) :: eraseFields known rest

/-- The variants with names in place of declarations. -/
def eraseVariants (known : Outlines) : List (String × List Ty) → List (String × List Ty)
  | [] => []
  | (name, tys) :: rest => (name, eraseAll known tys) :: eraseVariants known rest

end

/-- The base of an application with a name in place of the declaration. -/
def eraseBase (known : Outlines) (base : Ty) : Ty :=
  if base.isTold known then abstract base.name else base.erase known

/-- The type with names in place of the declarations that are not the type itself. -/
def eraseWithin (known : Outlines) : Ty → Ty
  | record name fields => record name (eraseFields known fields)
  | sum name variants => sum name (eraseVariants known variants)
  | generic base args => generic (base.eraseWithin known) (eraseAll known args)
  | ty => ty.erase known

variable (known : Outlines)

/-! ### What erasure keeps -/

theorem eraseAll_eq (tys : List Ty) : eraseAll known tys = tys.map (erase known) := by
  induction tys with
  | nil => rfl
  | cons ty tys ih => rw [eraseAll, List.map_cons, ih]

theorem eraseFields_eq (fields : List (String × Ty)) :
    eraseFields known fields = fields.map fun field => (field.1, field.2.erase known) := by
  induction fields with
  | nil => rfl
  | cons field fields ih => rw [eraseFields, List.map_cons, ih]

theorem eraseVariants_eq (variants : List (String × List Ty)) :
    eraseVariants known variants =
      variants.map fun variant => (variant.1, variant.2.map (erase known)) := by
  induction variants with
  | nil => rfl
  | cons variant variants ih => rw [eraseVariants, List.map_cons, ih, eraseAll_eq]

@[simp] theorem names_eraseFields (fields : List (String × Ty)) :
    (eraseFields known fields).map Prod.fst = fields.map Prod.fst := by
  simp [eraseFields_eq]

@[simp] theorem names_eraseVariants (variants : List (String × List Ty)) :
    (eraseVariants known variants).map Prod.fst = variants.map Prod.fst := by
  simp [eraseVariants_eq]

@[simp] theorem name_erase : ∀ ty : Ty, (ty.erase known).name = ty.name
  | record _ _ => by
      rw [erase]
      split <;> rfl
  | sum _ _ => by
      rw [erase]
      split <;> rfl
  | generic base _ => by
      rw [erase, name, name]
      split
      · rfl
      · exact name_erase base
  | array _ | function _ _ | ref _ | mutRef _ | map _ _ | primitive _ | var _ _ | abstract _
  | unit => rfl

@[simp] theorem normalName_erase (ty : Ty) : (ty.erase known).normalName = ty.normalName := by
  rw [normalName, normalName, name_erase]

@[simp] theorem isVar_erase (ty : Ty) : (ty.erase known).isVar = ty.isVar := by
  cases ty <;> rw [erase] <;> first | rfl | (split <;> rfl)

@[simp] theorem isAuto_erase (ty : Ty) : (ty.erase known).isAuto = ty.isAuto := by
  cases ty <;> rw [erase] <;> first | rfl | (split <;> rfl)

mutual

theorem hasVars_erase : ∀ ty : Ty, (ty.erase known).hasVars = ty.hasVars
  | record name fields => by
      rw [erase]
      split
      · next told =>
          rw [Bool.and_eq_true, Bool.not_eq_true'] at told
          rw [hasVars, hasVars, told.2]
      · rw [hasVars, hasVars, hasVarsFields_erase fields]
  | sum name variants => by
      rw [erase]
      split
      · next told =>
          rw [Bool.and_eq_true, Bool.not_eq_true'] at told
          rw [hasVars, hasVars, told.2]
      · rw [hasVars, hasVars, hasVarsVariants_erase variants]
  | generic base args => by rw [erase, hasVars, hasVars, hasVarsAny_erase args]
  | array element => by rw [erase, hasVars, hasVars, hasVars_erase element]
  | function params result => by
      rw [erase, hasVars, hasVars, hasVarsAny_erase params, hasVars_erase result]
  | ref referent => by rw [erase, hasVars, hasVars, hasVars_erase referent]
  | mutRef referent => by rw [erase, hasVars, hasVars, hasVars_erase referent]
  | map key value => by rw [erase, hasVars, hasVars, hasVars_erase key, hasVars_erase value]
  | primitive _ | var _ _ | abstract _ | unit => rfl

theorem hasVarsAny_erase : ∀ tys : List Ty, hasVarsAny (eraseAll known tys) = hasVarsAny tys
  | [] => rfl
  | ty :: tys => by
      rw [eraseAll, hasVarsAny, hasVarsAny, hasVars_erase ty, hasVarsAny_erase tys]

theorem hasVarsFields_erase : ∀ fields : List (String × Ty),
    hasVarsFields (eraseFields known fields) = hasVarsFields fields
  | [] => rfl
  | (name, ty) :: fields => by
      rw [eraseFields, hasVarsFields, hasVarsFields, hasVars_erase ty, hasVarsFields_erase fields]

theorem hasVarsVariants_erase : ∀ variants : List (String × List Ty),
    hasVarsVariants (eraseVariants known variants) = hasVarsVariants variants
  | [] => rfl
  | (name, tys) :: variants => by
      rw [eraseVariants, hasVarsVariants, hasVarsVariants, hasVarsAny_erase tys,
        hasVarsVariants_erase variants]

end

attribute [simp] hasVars_erase

@[simp] theorem concreteness_erase (ty : Ty) : (ty.erase known).concreteness = ty.concreteness := by
  have kept (args : List Ty) : (eraseAll known args).countP (fun arg => !arg.hasVars) =
      args.countP fun arg => !arg.hasVars := by
    rw [eraseAll_eq, List.countP_map]
    simp only [Function.comp_def, hasVars_erase]
  cases ty with
  | generic base args => exact kept args
  | record name fields =>
      rw [erase]
      split <;> rfl
  | sum name variants =>
      rw [erase]
      split <;> rfl
  | _ => rfl

/-! ### Erasing twice -/

/-- A record with the same fields, but for what is erased in them. -/
theorem erase_record_congr {fields fields' : List (String × Ty)} (name : String)
    (same : eraseFields known fields = eraseFields known fields') :
    (record name fields).erase known = (record name fields').erase known := by
  have names := congrArg (List.map Prod.fst) same
  rw [names_eraseFields, names_eraseFields] at names
  have vars := congrArg hasVarsFields same
  rw [hasVarsFields_erase, hasVarsFields_erase] at vars
  rw [erase, erase, isTold, isTold, names, vars, same]

theorem erase_sum_congr {variants variants' : List (String × List Ty)} (name : String)
    (same : eraseVariants known variants = eraseVariants known variants') :
    (sum name variants).erase known = (sum name variants').erase known := by
  have vars := congrArg hasVarsVariants same
  rw [hasVarsVariants_erase, hasVarsVariants_erase] at vars
  rw [erase, erase, isTold, isTold, vars, same]

theorem isTold_erase {ty : Ty} (untold : ty.isTold known = false) :
    (ty.erase known).isTold known = false := by
  cases ty with
  | record name fields =>
      rw [erase, untold, Bool.false_and, if_neg Bool.false_ne_true, isTold, names_eraseFields]
      exact untold
  | sum name variants =>
      rw [erase, untold, Bool.false_and, if_neg Bool.false_ne_true]
      exact untold
  | _ => rfl

/-- What is known by its name is erased to its name, or it keeps its variables and its name. -/
theorem eraseBase_erase_of_isTold {ty : Ty} (told : ty.isTold known = true) :
    (ty.erase known).eraseBase known = abstract ty.name := by
  cases ty with
  | record name fields =>
      rw [erase, told, Bool.true_and]
      split
      · rfl
      · rw [eraseBase, isTold, names_eraseFields]
        exact if_pos told
  | sum name variants =>
      rw [erase, told, Bool.true_and]
      split
      · rfl
      · exact if_pos told
  | _ => cases told

theorem eraseBase_erase_of_idem {base : Ty}
    (idem : (base.erase known).erase known = base.erase known) :
    (base.erase known).eraseBase known = base.eraseBase known := by
  cases told : base.isTold known with
  | true => rw [eraseBase_erase_of_isTold known told, eraseBase, if_pos told]
  | false =>
      have erased (ty : Ty) (untold : ty.isTold known = false) :
          ty.eraseBase known = ty.erase known := by
        rw [eraseBase, untold, if_neg Bool.false_ne_true]
      rw [erased _ (isTold_erase known told), erased _ told, idem]

mutual

theorem erase_erase : ∀ ty : Ty, (ty.erase known).erase known = ty.erase known
  | record name fields => by
      have inner := erase_record_congr known name (eraseFields_eraseFields fields)
      rw [erase]
      split
      · rfl
      · next untold => rw [inner, erase, if_neg untold]
  | sum name variants => by
      have inner := erase_sum_congr known name (eraseVariants_eraseVariants variants)
      rw [erase]
      split
      · rfl
      · next untold => rw [inner, erase, if_neg untold]
  | generic base args => by
      rw [erase]
      split
      · rw [erase, eraseAll_eraseAll args]
        rfl
      · next untold =>
          have base := eraseBase_erase_of_idem known (erase_erase base)
          rw [eraseBase] at base
          rw [erase, eraseAll_eraseAll args, base, eraseBase, if_neg untold]
  | array element => by rw [erase, erase, erase_erase element]
  | function params result => by
      rw [erase, erase, eraseAll_eraseAll params, erase_erase result]
  | ref referent => by rw [erase, erase, erase_erase referent]
  | mutRef referent => by rw [erase, erase, erase_erase referent]
  | map key value => by rw [erase, erase, erase_erase key, erase_erase value]
  | primitive _ | var _ _ | abstract _ | unit => rfl

theorem eraseAll_eraseAll : ∀ tys : List Ty,
    eraseAll known (eraseAll known tys) = eraseAll known tys
  | [] => rfl
  | ty :: tys => by rw [eraseAll, eraseAll, erase_erase ty, eraseAll_eraseAll tys]

theorem eraseFields_eraseFields : ∀ fields : List (String × Ty),
    eraseFields known (eraseFields known fields) = eraseFields known fields
  | [] => rfl
  | (name, ty) :: fields => by
      rw [eraseFields, eraseFields, erase_erase ty, eraseFields_eraseFields fields]

theorem eraseVariants_eraseVariants : ∀ variants : List (String × List Ty),
    eraseVariants known (eraseVariants known variants) = eraseVariants known variants
  | [] => rfl
  | (name, tys) :: variants => by
      rw [eraseVariants, eraseVariants, eraseAll_eraseAll tys, eraseVariants_eraseVariants variants]

end

theorem eraseBase_erase (base : Ty) : (base.erase known).eraseBase known = base.eraseBase known :=
  eraseBase_erase_of_idem known (erase_erase known base)

theorem eraseBase_eraseBase (base : Ty) :
    (base.eraseBase known).eraseBase known = base.eraseBase known := by
  by_cases told : base.isTold known = true
  · have erased : base.eraseBase known = abstract base.name := if_pos told
    rw [erased]
    rfl
  · have erased : base.eraseBase known = base.erase known := if_neg told
    rw [erased, eraseBase_erase, erased]

/-! ### Erasing within -/

section Within

theorem isTold_eraseWithin (ty : Ty) : (ty.eraseWithin known).isTold known = ty.isTold known := by
  cases ty with
  | record name fields => rw [eraseWithin, isTold, isTold, names_eraseFields]
  | _ => rfl

theorem name_eraseWithin : ∀ ty : Ty, (ty.eraseWithin known).name = ty.name
  | generic base _ => name_eraseWithin base
  | record _ _ | sum _ _ | array _ | function _ _ | ref _ | mutRef _ | map _ _ | primitive _
  | var _ _ | abstract _ | unit => rfl

/-- What is erased within a type tells what is erased of it. -/
theorem erase_eraseWithin : ∀ ty : Ty, (ty.eraseWithin known).erase known = ty.erase known
  | generic base args => by
      rw [eraseWithin, erase, erase, isTold_eraseWithin, name_eraseWithin, eraseAll_eraseAll,
        erase_eraseWithin base]
  | record name fields => erase_record_congr known name (eraseFields_eraseFields known fields)
  | sum name variants => erase_sum_congr known name (eraseVariants_eraseVariants known variants)
  | array element => erase_erase known (array element)
  | function params result => erase_erase known (function params result)
  | ref referent => erase_erase known (ref referent)
  | mutRef referent => erase_erase known (mutRef referent)
  | map key value => erase_erase known (map key value)
  | primitive _ | var _ _ | abstract _ | unit => rfl

variable {known} {a b : Ty}

theorem erase_of_eraseWithin (same : a.eraseWithin known = b.eraseWithin known) :
    a.erase known = b.erase known := by
  rw [← erase_eraseWithin, same, erase_eraseWithin]

theorem eraseBase_of_eraseWithin (same : a.eraseWithin known = b.eraseWithin known) :
    a.eraseBase known = b.eraseBase known := by
  rw [eraseBase, eraseBase, ← isTold_eraseWithin, same, isTold_eraseWithin,
    ← name_eraseWithin known a, same, name_eraseWithin, erase_of_eraseWithin same]

end Within

/-! ### Substitution -/

section Substitution

variable (bindings : Bindings)

theorem same_var_erase (ty : Ty) (name : String) (constraint : Option String) :
    (ty.erase known).same (var name constraint) = ty.same (var name constraint) := by
  cases ty <;> rw [erase] <;> first | rfl | (split <;> rfl)

mutual

/-- Substituting in what is erased differs from substituting first at most in what is erased
then: a declaration can lose its variables by it. -/
theorem erase_subst : ∀ ty : Ty, (ty.subst bindings).erase known =
    ((ty.erase known).subst (bindings.mapValues (erase known))).erase known
  | var name constraint => by
      rw [erase, subst_var, subst_var, Dict.get?_mapValues]
      rcases bindings.get? name with _ | bound
      · rfl
      · dsimp only [Option.map_some]
        rw [same_var_erase]
        split
        · rfl
        · exact (erase_erase known bound).symm
  | array element => by
      rw [subst_array, erase, erase_subst element, erase, subst_array, erase]
  | generic base args => by
      have bases := eraseBase_eraseBase known base
      rw [eraseBase, eraseBase] at bases
      rw [subst_generic, erase, erase, subst_generic, erase, bases, eraseAll_subst args]
  | function params result => by
      rw [subst_function, erase, eraseAll_subst params, erase_subst result, erase, subst_function,
        erase]
  | record name fields => by
      rw [erase]
      split
      · next told =>
          rw [Bool.and_eq_true, Bool.not_eq_true'] at told
          have closed : (record name fields).hasVars = false := told.2
          rw [subst, replaced?_of_closed bindings _ closed, Option.getD_none, erase, told.1, told.2]
          rfl
      · rw [subst_record, subst_record]
        exact erase_record_congr known name (eraseFields_subst fields)
  | sum name variants => by
      rw [erase]
      split
      · next told =>
          rw [Bool.and_eq_true, Bool.not_eq_true'] at told
          have closed : (sum name variants).hasVars = false := told.2
          rw [subst, replaced?_of_closed bindings _ closed, Option.getD_none, erase, told.1, told.2]
          rfl
      · rw [subst_sum, subst_sum]
        exact erase_sum_congr known name (eraseVariants_subst variants)
  | ref referent => (erase_erase known (ref referent)).symm
  | mutRef referent => (erase_erase known (mutRef referent)).symm
  | map key value => (erase_erase known (map key value)).symm
  | primitive _ | abstract _ | unit => rfl

theorem eraseAll_subst : ∀ tys : List Ty, eraseAll known (tys.map (·.subst bindings)) =
    eraseAll known ((eraseAll known tys).map (·.subst (bindings.mapValues (erase known))))
  | [] => rfl
  | ty :: tys => by
      rw [List.map_cons, eraseAll, erase_subst ty, eraseAll_subst tys]
      rfl

theorem eraseFields_subst : ∀ fields : List (String × Ty),
    eraseFields known (fields.map fun field => (field.1, field.2.subst bindings)) =
      eraseFields known ((eraseFields known fields).map fun field =>
        (field.1, field.2.subst (bindings.mapValues (erase known))))
  | [] => rfl
  | (name, ty) :: fields => by
      rw [List.map_cons, eraseFields, erase_subst ty, eraseFields_subst fields]
      rfl

theorem eraseVariants_subst : ∀ variants : List (String × List Ty),
    eraseVariants known (variants.map fun variant =>
        (variant.1, variant.2.map (·.subst bindings))) =
      eraseVariants known ((eraseVariants known variants).map fun variant =>
        (variant.1, variant.2.map (·.subst (bindings.mapValues (erase known)))))
  | [] => rfl
  | (name, tys) :: variants => by
      rw [List.map_cons, eraseVariants, eraseAll_subst tys, eraseVariants_subst variants]
      rfl

end

end Substitution

end Ty

end ModuleTyping
