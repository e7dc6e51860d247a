import ModuleTyping.Substitution

/-!
# Substitution in plain form

Substitution rebuilds only what it changes. What it gives is the type with every part that
it reaches replaced, one equation for each shape; a type without variables is left as it is.
So it is plain replacement of variables (`Ty.replaceVars`), and where there was nothing to
replace it rebuilds nothing (`replaced?_of_subst_eq`).

References and maps are not reached, although variables are looked for in them (`hasVars`) and
bound from them. When all variables of a type are bound to types without variables, those that
stand inside references and maps are the ones that remain (`vars_subst`).
-/

namespace ModuleTyping.Ty

variable (bindings : Bindings)

theorem replacedAll?_getD (tys : List Ty) :
    (replacedAll? bindings tys).getD tys = tys.map (·.subst bindings) := by
  induction tys with
  | nil => rfl
  | cons ty tys ih =>
      rw [replacedAll?, List.map_cons, ← ih, subst]
      rcases ty.replaced? bindings with _ | ty' <;>
        rcases replacedAll? bindings tys with _ | tys' <;> rfl

theorem replacedFields?_getD (fields : List (String × Ty)) :
    (replacedFields? bindings fields).getD fields =
      fields.map fun field => (field.1, field.2.subst bindings) := by
  induction fields with
  | nil => rfl
  | cons field fields ih =>
      rw [replacedFields?, List.map_cons, ← ih, subst]
      rcases field.2.replaced? bindings with _ | ty <;>
        rcases replacedFields? bindings fields with _ | fields' <;> rfl

theorem replacedVariants?_getD (variants : List (String × List Ty)) :
    (replacedVariants? bindings variants).getD variants =
      variants.map fun variant => (variant.1, variant.2.map (·.subst bindings)) := by
  induction variants with
  | nil => rfl
  | cons variant variants ih =>
      rw [replacedVariants?, List.map_cons, ← ih, ← replacedAll?_getD]
      rcases replacedAll? bindings variant.2 with _ | tys <;>
        rcases replacedVariants? bindings variants with _ | variants' <;> rfl

theorem subst_array (element : Ty) :
    (array element).subst bindings = array (element.subst bindings) := by
  rw [subst, replaced?, subst]
  rcases element.replaced? bindings with _ | _ <;> rfl

theorem subst_generic (base : Ty) (args : List Ty) :
    (generic base args).subst bindings = generic base (args.map (·.subst bindings)) := by
  rw [subst, replaced?, ← replacedAll?_getD]
  rcases replacedAll? bindings args with _ | _ <;> rfl

theorem subst_function (params : List Ty) (result : Ty) :
    (function params result).subst bindings =
      function (params.map (·.subst bindings)) (result.subst bindings) := by
  rw [subst, replaced?, ← replacedAll?_getD, subst]
  rcases replacedAll? bindings params with _ | _ <;>
    rcases result.replaced? bindings with _ | _ <;> rfl

theorem subst_record (name : String) (fields : List (String × Ty)) :
    (record name fields).subst bindings =
      record name (fields.map fun field => (field.1, field.2.subst bindings)) := by
  rw [subst, replaced?, ← replacedFields?_getD]
  rcases replacedFields? bindings fields with _ | _ <;> rfl

theorem subst_sum (name : String) (variants : List (String × List Ty)) :
    (sum name variants).subst bindings =
      sum name (variants.map fun variant => (variant.1, variant.2.map (·.subst bindings))) := by
  rw [subst, replaced?, ← replacedVariants?_getD]
  rcases replacedVariants? bindings variants with _ | _ <;> rfl

/-- A variable stands for what it is bound to, which is the variable itself if that is a
variable of its name. -/
theorem subst_var (name : String) (constraint : Option String) :
    (var name constraint).subst bindings =
      match bindings.get? name with
      | some bound => if bound.same (var name constraint) then var name constraint else bound
      | none => var name constraint := by
  rw [subst, replaced?]
  rcases bindings.get? name with _ | bound
  · rfl
  · dsimp only
    split <;> rfl

/-- Only a variable can change its name. -/
theorem name_subst {ty : Ty} (notVar : ty.isVar = false) : (ty.subst bindings).name = ty.name := by
  cases ty with
  | var => cases notVar
  | array => rw [subst_array, name, name]
  | generic => rw [subst_generic, name, name]
  | function => rw [subst_function, name, name]
  | record => rw [subst_record, name, name]
  | sum => rw [subst_sum, name, name]
  | _ => rfl

mutual

/-- Nothing is substituted in a type without variables. -/
theorem replaced?_of_closed : ∀ ty : Ty, ty.hasVars = false → ty.replaced? bindings = none
  | var _ _, closed => by cases closed
  | array element, closed => by rw [replaced?, replaced?_of_closed element closed]; rfl
  | generic base args, closed => by rw [replaced?, replacedAll?_of_closed args closed]; rfl
  | function params result, closed => by
      rw [hasVars, Bool.or_eq_false_iff] at closed
      rw [replaced?, replacedAll?_of_closed params closed.1, replaced?_of_closed result closed.2]
  | record name fields, closed => by
      rw [replaced?, replacedFields?_of_closed fields closed]
      rfl
  | sum name variants, closed => by
      rw [replaced?, replacedVariants?_of_closed variants closed]
      rfl
  | primitive _, _ | abstract _, _ | ref _, _ | mutRef _, _ | map _ _, _ | unit, _ => rfl

theorem replacedAll?_of_closed : ∀ tys : List Ty, hasVarsAny tys = false →
    replacedAll? bindings tys = none
  | [], _ => rfl
  | ty :: tys, closed => by
      rw [hasVarsAny, Bool.or_eq_false_iff] at closed
      rw [replacedAll?, replaced?_of_closed ty closed.1, replacedAll?_of_closed tys closed.2]

theorem replacedFields?_of_closed : ∀ fields : List (String × Ty), hasVarsFields fields = false →
    replacedFields? bindings fields = none
  | [], _ => rfl
  | (name, ty) :: fields, closed => by
      rw [hasVarsFields, Bool.or_eq_false_iff] at closed
      rw [replacedFields?, replaced?_of_closed ty closed.1,
        replacedFields?_of_closed fields closed.2]

theorem replacedVariants?_of_closed : ∀ variants : List (String × List Ty),
    hasVarsVariants variants = false → replacedVariants? bindings variants = none
  | [], _ => rfl
  | (name, tys) :: variants, closed => by
      rw [hasVarsVariants, Bool.or_eq_false_iff] at closed
      rw [replacedVariants?, replacedAll?_of_closed tys closed.1,
        replacedVariants?_of_closed variants closed.2]

end

/-! ### Plain replacement -/

/-- What stands for a variable: the type it is bound to, unless that is the variable itself. -/
def replacement (bindings : Bindings) (name : String) (constraint : Option String) : Ty :=
  match bindings.get? name with
  | some bound => if bound.same (var name constraint) then var name constraint else bound
  | none => var name constraint

mutual

/-- The type with `f` in place of each variable that substitution reaches, all at once. -/
def replaceVars (f : String → Option String → Ty) : Ty → Ty
  | var name constraint => f name constraint
  | array element => array (element.replaceVars f)
  | generic base args => generic base (replaceVarsAll f args)
  | function params result => function (replaceVarsAll f params) (result.replaceVars f)
  | record name fields => record name (replaceVarsFields f fields)
  | sum name variants => sum name (replaceVarsVariants f variants)
  | ref referent => ref referent
  | mutRef referent => mutRef referent
  | map key value => map key value
  | primitive name => primitive name
  | abstract name => abstract name
  | unit => unit

/-- The types with their variables replaced. -/
def replaceVarsAll (f : String → Option String → Ty) : List Ty → List Ty
  | [] => []
  | ty :: rest => ty.replaceVars f :: replaceVarsAll f rest

/-- The fields with the variables of their types replaced. -/
def replaceVarsFields (f : String → Option String → Ty) :
    List (String × Ty) → List (String × Ty)
  | [] => []
  | (name, ty) :: rest => (name, ty.replaceVars f) :: replaceVarsFields f rest

/-- The variants with the variables of their fields replaced. -/
def replaceVarsVariants (f : String → Option String → Ty) :
    List (String × List Ty) → List (String × List Ty)
  | [] => []
  | (name, tys) :: rest => (name, replaceVarsAll f tys) :: replaceVarsVariants f rest

end

mutual

theorem subst_eq_replaceVars : ∀ ty : Ty, ty.subst bindings = ty.replaceVars (replacement bindings)
  | var name constraint => subst_var bindings name constraint
  | array element => by
      rw [subst_array, replaceVars, subst_eq_replaceVars element]
  | generic base args => by
      rw [subst_generic, replaceVars, map_subst_eq args]
  | function params result => by
      rw [subst_function, replaceVars, map_subst_eq params, subst_eq_replaceVars result]
  | record name fields => by
      rw [subst_record, replaceVars, map_subst_fields_eq fields]
  | sum name variants => by
      rw [subst_sum, replaceVars, map_subst_variants_eq variants]
  | ref _ | mutRef _ | map _ _ | primitive _ | abstract _ | unit => rfl

theorem map_subst_eq : ∀ tys : List Ty,
    tys.map (·.subst bindings) = replaceVarsAll (replacement bindings) tys
  | [] => rfl
  | ty :: tys => by
      rw [List.map_cons, replaceVarsAll, subst_eq_replaceVars ty, map_subst_eq tys]

theorem map_subst_fields_eq : ∀ fields : List (String × Ty),
    (fields.map fun field => (field.1, field.2.subst bindings)) =
      replaceVarsFields (replacement bindings) fields
  | [] => rfl
  | (name, ty) :: fields => by
      rw [List.map_cons, replaceVarsFields, subst_eq_replaceVars ty, map_subst_fields_eq fields]

theorem map_subst_variants_eq : ∀ variants : List (String × List Ty),
    (variants.map fun variant => (variant.1, variant.2.map (·.subst bindings))) =
      replaceVarsVariants (replacement bindings) variants
  | [] => rfl
  | (name, tys) :: variants => by
      rw [List.map_cons, replaceVarsVariants, map_subst_eq tys, map_subst_variants_eq variants]

end

mutual

/-- A type that substitution leaves as it is is not rebuilt. -/
theorem replaced?_of_subst_eq : ∀ ty : Ty, ty.subst bindings = ty → ty.replaced? bindings = none
  | var name constraint, same => by
      rw [subst, replaced?] at same
      rw [replaced?]
      cases held : bindings.get? name with
      | none => rfl
      | some bound =>
          by_cases self : bound.same (var name constraint) = true
          · simp only [self, if_true]
          · -- What a variable is replaced by differs from it.
            simp only [held, self] at same
            subst same
            simp [Ty.same] at self
  | array element, same => by
      rw [subst_array] at same
      rw [replaced?, replaced?_of_subst_eq element (Ty.array.inj same)]
      rfl
  | generic base args, same => by
      rw [subst_generic] at same
      rw [replaced?, replacedAll?_of_map_eq args (Ty.generic.inj same).2]
      rfl
  | function params result, same => by
      rw [subst_function] at same
      obtain ⟨params_same, result_same⟩ := Ty.function.inj same
      rw [replaced?, replacedAll?_of_map_eq params params_same,
        replaced?_of_subst_eq result result_same]
  | record name fields, same => by
      rw [subst_record] at same
      rw [replaced?, replacedFields?_of_map_eq fields (Ty.record.inj same).2]
      rfl
  | sum name variants, same => by
      rw [subst_sum] at same
      rw [replaced?, replacedVariants?_of_map_eq variants (Ty.sum.inj same).2]
      rfl
  | ref _, _ | mutRef _, _ | map _ _, _ | primitive _, _ | abstract _, _ | unit, _ => rfl

theorem replacedAll?_of_map_eq : ∀ tys : List Ty, tys.map (·.subst bindings) = tys →
    replacedAll? bindings tys = none
  | [], _ => rfl
  | ty :: tys, same => by
      obtain ⟨first, rest⟩ := List.cons.inj same
      rw [replacedAll?, replaced?_of_subst_eq ty first, replacedAll?_of_map_eq tys rest]

theorem replacedFields?_of_map_eq : ∀ fields : List (String × Ty),
    (fields.map fun field => (field.1, field.2.subst bindings)) = fields →
      replacedFields? bindings fields = none
  | [], _ => rfl
  | (name, ty) :: fields, same => by
      obtain ⟨first, rest⟩ := List.cons.inj same
      rw [replacedFields?, replaced?_of_subst_eq ty (Prod.mk.inj first).2,
        replacedFields?_of_map_eq fields rest]

theorem replacedVariants?_of_map_eq : ∀ variants : List (String × List Ty),
    (variants.map fun variant => (variant.1, variant.2.map (·.subst bindings))) = variants →
      replacedVariants? bindings variants = none
  | [], _ => rfl
  | (name, tys) :: variants, same => by
      obtain ⟨first, rest⟩ := List.cons.inj same
      rw [replacedVariants?, replacedAll?_of_map_eq tys (Prod.mk.inj first).2,
        replacedVariants?_of_map_eq variants rest]

end

/-- Substitution is the plain replacement of variables by what stands for them, and it hands back
the type it was given exactly if that replacement changes nothing in it. -/
theorem subst_replaces_and_shares (ty : Ty) :
    ty.subst bindings = ty.replaceVars (replacement bindings) ∧
      (ty.replaced? bindings = none ↔ ty.replaceVars (replacement bindings) = ty) := by
  refine ⟨subst_eq_replaceVars bindings ty, ?_⟩
  rw [← subst_eq_replaceVars]
  constructor
  · intro untouched
    rw [subst, untouched, Option.getD_none]
  · exact replaced?_of_subst_eq bindings ty

/-! ### What substitution does not reach -/

mutual

/-- The names of the variables that occur in the type, in order. As `hasVars` does, this passes
over the base of a generic application. Those outside of references and maps, which are the ones
that substitution reaches, count only if `reached` is set. -/
def vars (reached : Bool) : Ty → List String
  | var name _ => if reached then [name] else []
  | array element => element.vars reached
  | function params result => varsAll reached params ++ result.vars reached
  | generic _ args => varsAll reached args
  | record _ fields => varsFields reached fields
  | sum _ variants => varsVariants reached variants
  | ref referent => referent.vars true
  | mutRef referent => referent.vars true
  | map key value => key.vars true ++ value.vars true
  | primitive _ => []
  | abstract _ => []
  | unit => []

/-- The variables of the types. -/
def varsAll (reached : Bool) : List Ty → List String
  | [] => []
  | ty :: rest => ty.vars reached ++ varsAll reached rest

/-- The variables of the fields' types. -/
def varsFields (reached : Bool) : List (String × Ty) → List String
  | [] => []
  | (_, ty) :: rest => ty.vars reached ++ varsFields reached rest

/-- The variables of the variants' fields. -/
def varsVariants (reached : Bool) : List (String × List Ty) → List String
  | [] => []
  | (_, tys) :: rest => varsAll reached tys ++ varsVariants reached rest

end

/-- The variables that occur in the type. -/
def openVars (ty : Ty) : List String :=
  ty.vars true

/-- The variables that occur inside references and maps of the type. -/
def shelteredVars (ty : Ty) : List String :=
  ty.vars false

mutual

theorem hasVars_eq_false_iff : ∀ ty : Ty, ty.hasVars = false ↔ ty.vars true = []
  | var _ _ => by simp [hasVars, vars]
  | array element => hasVars_eq_false_iff element
  | ref referent => hasVars_eq_false_iff referent
  | mutRef referent => hasVars_eq_false_iff referent
  | function params result => by
      simp only [hasVars, vars, Bool.or_eq_false_iff, List.append_eq_nil_iff,
        hasVarsAny_eq_false_iff params, hasVars_eq_false_iff result]
  | generic _ args => hasVarsAny_eq_false_iff args
  | map key value => by
      simp only [hasVars, vars, Bool.or_eq_false_iff, List.append_eq_nil_iff,
        hasVars_eq_false_iff key, hasVars_eq_false_iff value]
  | record _ fields => hasVarsFields_eq_false_iff fields
  | sum _ variants => hasVarsVariants_eq_false_iff variants
  | primitive _ | abstract _ | unit => ⟨fun _ => rfl, fun _ => rfl⟩

theorem hasVarsAny_eq_false_iff : ∀ tys : List Ty, hasVarsAny tys = false ↔ varsAll true tys = []
  | [] => ⟨fun _ => rfl, fun _ => rfl⟩
  | ty :: tys => by
      simp only [hasVarsAny, varsAll, Bool.or_eq_false_iff, List.append_eq_nil_iff,
        hasVars_eq_false_iff ty, hasVarsAny_eq_false_iff tys]

theorem hasVarsFields_eq_false_iff : ∀ fields : List (String × Ty),
    hasVarsFields fields = false ↔ varsFields true fields = []
  | [] => ⟨fun _ => rfl, fun _ => rfl⟩
  | (_, ty) :: fields => by
      simp only [hasVarsFields, varsFields, Bool.or_eq_false_iff, List.append_eq_nil_iff,
        hasVars_eq_false_iff ty, hasVarsFields_eq_false_iff fields]

theorem hasVarsVariants_eq_false_iff : ∀ variants : List (String × List Ty),
    hasVarsVariants variants = false ↔ varsVariants true variants = []
  | [] => ⟨fun _ => rfl, fun _ => rfl⟩
  | (_, tys) :: variants => by
      simp only [hasVarsVariants, varsVariants, Bool.or_eq_false_iff, List.append_eq_nil_iff,
        hasVarsAny_eq_false_iff tys, hasVarsVariants_eq_false_iff variants]

end

/-- Every one of the variables is bound to a type without variables. -/
def Closes (bindings : Bindings) (names : List String) : Prop :=
  ∀ name ∈ names, ∃ bound, bindings.get? name = some bound ∧ bound.hasVars = false

variable {bindings}

theorem closes_append {first rest : List String} :
    Closes bindings (first ++ rest) ↔ Closes bindings first ∧ Closes bindings rest :=
  List.forall_mem_append

theorem vars_subst_var {name : String} (constraint : Option String)
    (closes : Closes bindings [name]) : ((var name constraint).subst bindings).vars true = [] := by
  obtain ⟨bound, held, closed⟩ := closes name (.head _)
  have other : bound.same (var name constraint) = false := by
    cases bound with
    | var => cases closed
    | _ => rfl
  rw [subst_var, held]
  simp only [other]
  exact (hasVars_eq_false_iff bound).mp closed

mutual

/-- When all variables are bound to types without variables, those that substitution does not
reach are the ones that are left. -/
theorem vars_subst : ∀ ty : Ty, Closes bindings (ty.vars true) →
    (ty.subst bindings).vars true = ty.vars false
  | var _ constraint, closes => vars_subst_var constraint closes
  | array element, closes => by
      rw [subst_array]
      exact vars_subst element closes
  | generic base args, closes => by
      rw [subst_generic]
      exact varsAll_subst args closes
  | function params result, closes => by
      obtain ⟨inputs, output⟩ := closes_append.mp closes
      rw [subst_function, vars, vars, varsAll_subst params inputs, vars_subst result output]
  | record name fields, closes => by
      rw [subst_record]
      exact varsFields_subst fields closes
  | sum name variants, closes => by
      rw [subst_sum]
      exact varsVariants_subst variants closes
  | ref _, _ | mutRef _, _ | map _ _, _ | primitive _, _ | abstract _, _ | unit, _ => rfl

theorem varsAll_subst : ∀ tys : List Ty, Closes bindings (varsAll true tys) →
    varsAll true (tys.map (·.subst bindings)) = varsAll false tys
  | [], _ => rfl
  | ty :: tys, closes => by
      obtain ⟨first, rest⟩ := closes_append.mp closes
      rw [List.map_cons, varsAll, varsAll, vars_subst ty first, varsAll_subst tys rest]

theorem varsFields_subst : ∀ fields : List (String × Ty),
    Closes bindings (varsFields true fields) →
      varsFields true (fields.map fun field => (field.1, field.2.subst bindings)) =
        varsFields false fields
  | [], _ => rfl
  | (name, ty) :: fields, closes => by
      obtain ⟨first, rest⟩ := closes_append.mp closes
      rw [List.map_cons, varsFields, varsFields, vars_subst ty first, varsFields_subst fields rest]

theorem varsVariants_subst : ∀ variants : List (String × List Ty),
    Closes bindings (varsVariants true variants) →
      varsVariants true
          (variants.map fun variant => (variant.1, variant.2.map (·.subst bindings))) =
        varsVariants false variants
  | [], _ => rfl
  | (name, tys) :: variants, closes => by
      obtain ⟨first, rest⟩ := closes_append.mp closes
      rw [List.map_cons, varsVariants, varsVariants, varsAll_subst tys first,
        varsVariants_subst variants rest]

end

/-- When every variable that occurs in a type is bound to a type without variables, substitution
leaves none exactly if none of them occurs inside a reference or a map. -/
theorem hasVars_subst_eq_false_iff {ty : Ty}
    (bound : ∀ name ∈ ty.openVars,
      ∃ closed, bindings.get? name = some closed ∧ closed.hasVars = false) :
    (ty.subst bindings).hasVars = false ↔ ty.shelteredVars = [] := by
  rw [hasVars_eq_false_iff, vars_subst ty bound]
  rfl

/-- The base of the application, the declaration of `Option`, keeps a variable of its own, which
does not count. -/
theorem hasVars_subst_eq_false_iff_option :
    let option : Ty := .generic (.sum "Option" [("Some", [.var "V" none]), ("None", [])])
      [.var "T" none]
    let ty : Ty := .function [.array (.var "T" none), .record "Point" [("x", .var "U" none)]] option
    let bindings : Bindings := Dict.ofList [("T", .i32), ("U", .array .string)]
    (∀ name ∈ ty.openVars,
        ∃ closed, bindings.get? name = some closed ∧ closed.hasVars = false) ∧
      ty.shelteredVars = [] ∧ (ty.subst bindings).hasVars = false := by
  intro option ty bindings
  have bound : ∀ name ∈ ty.openVars,
      ∃ closed, bindings.get? name = some closed ∧ closed.hasVars = false := by
    intro name member
    have names : name = "T" ∨ name = "U" ∨ name = "T" := by
      simpa [ty, option, openVars, vars, varsAll, varsFields] using member
    rcases names with rfl | rfl | rfl
    · exact ⟨.i32, rfl, rfl⟩
    · exact ⟨.array .string, rfl, rfl⟩
    · exact ⟨.i32, rfl, rfl⟩
  exact ⟨bound, rfl, (hasVars_subst_eq_false_iff bound).mpr rfl⟩

/-- The variable of a reference stays, although it is bound to a type without variables. -/
theorem hasVars_subst_ref :
    let ty : Ty := .ref (.var "T" none)
    let bindings : Bindings := Dict.ofList [("T", .i32)]
    (∀ name ∈ ty.openVars,
        ∃ closed, bindings.get? name = some closed ∧ closed.hasVars = false) ∧
      (ty.subst bindings).hasVars = true := by
  intro ty bindings
  refine ⟨?_, rfl⟩
  intro name member
  obtain rfl : name = "T" := by simpa [ty, openVars, vars] using member
  exact ⟨.i32, rfl, rfl⟩

end ModuleTyping.Ty
