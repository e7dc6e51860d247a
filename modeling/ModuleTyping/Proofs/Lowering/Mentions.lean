import ModuleTyping.Proofs.Lowering.Meanings

/-!
# What the meaning of a type depends on

A written type mentions names by themselves (`bareNames`) and names with type arguments
(`appliedNames`). If these stand for akin types, the written type means akin types
(`meaning_akin`), and the same is true of declarations (`TypeDecl.meaning_akin`).
-/

namespace ModuleTyping

namespace WrittenType

mutual

/-- The names that stand by themselves in a written type. -/
def bareNames : WrittenType → List String
  | named name => [name]
  | generic _ args => bareNamesAll args
  | array element => element.bareNames
  | function params result => bareNamesAll params ++ result.bareNames
  | ref referent => referent.bareNames
  | mutRef referent => referent.bareNames
  | map key value => key.bareNames ++ value.bareNames
  | unit => []

/-- The names that stand by themselves in written types. -/
def bareNamesAll : List WrittenType → List String
  | [] => []
  | ty :: rest => ty.bareNames ++ bareNamesAll rest

end

mutual

/-- The names that have type arguments in a written type. -/
def appliedNames : WrittenType → List String
  | named _ => []
  | generic name args => name :: appliedNamesAll args
  | array element => element.appliedNames
  | function params result => appliedNamesAll params ++ result.appliedNames
  | ref referent => referent.appliedNames
  | mutRef referent => referent.appliedNames
  | map key value => key.appliedNames ++ value.appliedNames
  | unit => []

/-- The names that have type arguments in written types. -/
def appliedNamesAll : List WrittenType → List String
  | [] => []
  | ty :: rest => ty.appliedNames ++ appliedNamesAll rest

end

theorem bareNamesAll_append (tys tys' : List WrittenType) :
    bareNamesAll (tys ++ tys') = bareNamesAll tys ++ bareNamesAll tys' := by
  induction tys with
  | nil => rfl
  | cons ty tys ih => rw [List.cons_append, bareNamesAll, bareNamesAll, ih, List.append_assoc]

theorem appliedNamesAll_append (tys tys' : List WrittenType) :
    appliedNamesAll (tys ++ tys') = appliedNamesAll tys ++ appliedNamesAll tys' := by
  induction tys with
  | nil => rfl
  | cons ty tys ih =>
      rw [List.cons_append, appliedNamesAll, appliedNamesAll, ih, List.append_assoc]

/-- The name that a written type consists of, with or without type arguments. -/
def head? : WrittenType → Option String
  | named name => some name
  | generic name _ => some name
  | _ => none

end WrittenType

/-! ### Akin meanings -/

namespace Meanings

/-- By itself, the name stands for akin types in both. -/
def BareAkin (known : Outlines) (T T' : Meanings) (name : String) : Prop :=
  Option.Rel (fun info info' => info.ty.Akin known info'.ty) (T name) (T' name)

/-- With type arguments, the name stands for akin types in both. -/
def AppliedAkin (known : Outlines) (T T' : Meanings) (name : String) : Prop :=
  Option.Rel (fun info info' => info.typeParams = info'.typeParams ∧
    info.ty.eraseBase known = info'.ty.eraseBase known) (T name) (T' name)

/-- The name stands for the same in both, but for what is erased within. -/
def WithinAkin (known : Outlines) (T T' : Meanings) (name : String) : Prop :=
  Option.Rel (fun info info' => info.ty.eraseWithin known = info'.ty.eraseWithin known)
    (T name) (T' name)

/-- Every name stands for a type that is no variable and applies none. -/
def Rooted (T : Meanings) : Prop :=
  ∀ name info, T name = some info → info.ty.isRooted = true ∧ info.ty.isVar = false

/-- By itself, the name stands for a type without variables. -/
def ClosedAt (T : Meanings) (name : String) : Prop :=
  ∀ info, T name = some info → info.ty.hasVars = false

end Meanings

open Meanings (BareAkin AppliedAkin WithinAkin)

/-- Akin type arguments meet the same constraints. -/
theorem TypeParam.validate_akin {known : Outlines} {args args' : List Ty}
    (args_akin : Ty.AkinAll known args args') (declaration : String) (params : List TypeParam) :
    (validate declaration params args).toOption = (validate declaration params args').toOption := by
  induction args_akin generalizing params with
  | nil => rfl
  | @cons arg arg' args args' first _ ih =>
      cases params with
      | nil => rfl
      | cons param params =>
          rw [validate, validate]
          cases param.constraint with
          | none => exact ih params
          | some constraint =>
              dsimp only
              cases Constraint.known constraint with
              | error cause => rfl
              | ok _ =>
                  dsimp only [bind, Except.bind]
                  rw [first.satisfies constraint]
                  split
                  · exact ih params
                  · rfl

namespace WrittenType

variable {known : Outlines} {T T' : Meanings} {params : List TypeParam}

theorem meaningOfName_akin {name : String} (akin : BareAkin known T T' name) :
    Option.Rel (Ty.Akin known) (meaningOfName T name) (meaningOfName T' name) := by
  unfold meaningOfName
  split
  · exact .some rfl
  · split
    · exact .some rfl
    · exact rel_map akin fun _ _ tys => tys

theorem meaningOfApplied_akin {name : String} (akin : AppliedAkin known T T' name)
    {args args' : List Ty} (args_akin : Ty.AkinAll known args args') :
    Option.Rel (Ty.Akin known) (meaningOfApplied T name args) (meaningOfApplied T' name args') := by
  unfold meaningOfApplied
  unfold AppliedAkin at akin
  generalize T name = info at akin ⊢
  generalize T' name = info' at akin ⊢
  cases akin with
  | none =>
      dsimp only
      split
      · obtain ⟨key', keys, value', values, rfl⟩ := args_akin.pair
        refine .some ?_
        unfold Ty.Akin at keys values ⊢
        rw [Ty.erase, Ty.erase, keys, values]
      · next other =>
          split
          · obtain ⟨key, value, rfl⟩ : ∃ key value, args = [key, value] :=
              List.length_eq_two.mp args_akin.length_eq
            exact (other key value rfl rfl).elim
          · exact .none
  | @some info info' infos =>
      obtain ⟨typeParams, bases⟩ := infos
      dsimp only
      rw [typeParams, args_akin.length_eq, TypeParam.validate_akin args_akin]
      split
      · exact .none
      · refine rel_map (R := fun _ _ => True) ?_ fun _ _ _ => ?_
        · cases (TypeParam.validate name info'.typeParams args').toOption with
          | none => exact .none
          | some _ => exact .some trivial
        · unfold Ty.eraseBase at bases
          unfold Ty.Akin
          rw [Ty.erase, Ty.erase, bases, Ty.akinAll_iff.mp args_akin]

mutual

theorem meaning_akin : ∀ ty : WrittenType,
    (∀ name ∈ ty.bareNames, name ∉ params.map TypeParam.name → BareAkin known T T' name) →
    (∀ name ∈ ty.appliedNames, AppliedAkin known T T' name) →
    Option.Rel (Ty.Akin known) (ty.meaning T params) (ty.meaning T' params)
  | named name, bare, _ => by
      rw [meaning, meaning]
      cases found : params.find? (·.name == name) with
      | some param => exact .some rfl
      | none =>
          refine meaningOfName_akin (bare name (List.mem_singleton_self name) ?_)
          simpa [List.find?_eq_none] using found
  | generic name args, bare, applied => by
      rw [meaning, meaning]
      have args_akin := meanings_akin args bare fun name listed =>
        applied name (List.mem_cons_of_mem _ listed)
      exact rel_bind args_akin fun _ _ args_akin =>
        meaningOfApplied_akin (applied name List.mem_cons_self) args_akin
  | array element, bare, applied =>
      rel_map (meaning_akin element bare applied) fun _ _ tys => tys.array
  | function inputs result, bare, applied => by
      rw [meaning, meaning]
      have inputs_akin := meanings_akin inputs
        (fun name listed => bare name (List.mem_append_left _ listed))
        fun name listed => applied name (List.mem_append_left _ listed)
      have result_akin := meaning_akin result
        (fun name listed => bare name (List.mem_append_right _ listed))
        fun name listed => applied name (List.mem_append_right _ listed)
      exact rel_bind inputs_akin fun _ _ inputs_akin =>
        rel_map result_akin fun _ _ result_akin => .function inputs_akin result_akin
  | ref referent, bare, applied =>
      rel_map (meaning_akin referent bare applied) fun _ _ tys => congrArg Ty.ref tys
  | mutRef referent, bare, applied =>
      rel_map (meaning_akin referent bare applied) fun _ _ tys => congrArg Ty.mutRef tys
  | map key value, bare, applied => by
      rw [meaning, meaning]
      have keys := meaning_akin key
        (fun name listed => bare name (List.mem_append_left _ listed))
        fun name listed => applied name (List.mem_append_left _ listed)
      have values := meaning_akin value
        (fun name listed => bare name (List.mem_append_right _ listed))
        fun name listed => applied name (List.mem_append_right _ listed)
      exact rel_bind keys fun _ _ keys =>
        rel_map values fun _ _ values => congrArg₂ Ty.map keys values
  | unit, _, _ => .some rfl

theorem meanings_akin : ∀ tys : List WrittenType,
    (∀ name ∈ bareNamesAll tys, name ∉ params.map TypeParam.name → BareAkin known T T' name) →
    (∀ name ∈ appliedNamesAll tys, AppliedAkin known T T' name) →
    Option.Rel (Ty.AkinAll known) (meanings T params tys) (meanings T' params tys)
  | [], _, _ => .some .nil
  | ty :: tys, bare, applied => by
      rw [meanings, meanings]
      have first := meaning_akin ty
        (fun name listed => bare name (List.mem_append_left _ listed))
        fun name listed => applied name (List.mem_append_left _ listed)
      have rest := meanings_akin tys
        (fun name listed => bare name (List.mem_append_right _ listed))
        fun name listed => applied name (List.mem_append_right _ listed)
      exact rel_bind first fun _ _ first => rel_map rest fun _ _ rest => .cons first rest

end

/-! ### What a meaning keeps -/

/-- A written type that is not a name means nothing that could be erased as a whole. -/
theorem eraseWithin_meaning {ty : WrittenType} (head : ty.head? = none) {means : Ty}
    (given : ty.meaning T params = some means) :
    means.eraseWithin known = means.erase known := by
  cases ty with
  | named name => cases head
  | generic name args => cases head
  | unit =>
      cases given
      rfl
  | array element =>
      obtain ⟨element, -, rfl⟩ := Option.map_eq_some_iff.mp given
      rfl
  | function inputs result =>
      obtain ⟨inputs, -, given⟩ := Option.bind_eq_some_iff.mp given
      obtain ⟨result, -, rfl⟩ := Option.map_eq_some_iff.mp given
      rfl
  | ref referent =>
      obtain ⟨referent, -, rfl⟩ := Option.map_eq_some_iff.mp given
      rfl
  | mutRef referent =>
      obtain ⟨referent, -, rfl⟩ := Option.map_eq_some_iff.mp given
      rfl
  | map key value =>
      obtain ⟨key, -, given⟩ := Option.bind_eq_some_iff.mp given
      obtain ⟨value, -, rfl⟩ := Option.map_eq_some_iff.mp given
      rfl

/-- What a name means with akin type arguments differs only within, if what it stands for
does. -/
theorem meaningOfApplied_within {name : String} (applied : AppliedAkin known T T' name)
    (within : WithinAkin known T T' name) {args args' : List Ty}
    (args_akin : Ty.AkinAll known args args') :
    Option.Rel (fun a b => a.eraseWithin known = b.eraseWithin known)
      (meaningOfApplied T name args) (meaningOfApplied T' name args') := by
  refine rel_imp (meaningOfApplied_akin applied args_akin) fun means means' given given' akin => ?_
  unfold WithinAkin at within
  rcases meaningOfApplied_cases given with ⟨unknown, _, _, _, rfl⟩ | ⟨info, held, rfl⟩
  · rcases meaningOfApplied_cases given' with ⟨-, _, _, _, rfl⟩ | ⟨info', held', rfl⟩
    · exact akin
    · rw [unknown, held'] at within
      cases within
  · rcases meaningOfApplied_cases given' with ⟨unknown', _⟩ | ⟨info', held', rfl⟩
    · rw [held, unknown'] at within
      cases within
    · rw [held, held'] at within
      cases within with
      | some within => rw [Ty.eraseWithin, Ty.eraseWithin, within, Ty.akinAll_iff.mp args_akin]

theorem meaning_within (ty : WrittenType)
    (bare : ∀ name ∈ ty.bareNames, name ∉ params.map TypeParam.name → BareAkin known T T' name)
    (applied : ∀ name ∈ ty.appliedNames, AppliedAkin known T T' name)
    (head : ∀ name, ty.head? = some name → WithinAkin known T T' name) :
    Option.Rel (fun a b => a.eraseWithin known = b.eraseWithin known)
      (ty.meaning T params) (ty.meaning T' params) := by
  cases headed : ty.head? with
  | none =>
      refine rel_imp (meaning_akin ty bare applied) fun means means' given given' akin => ?_
      rw [eraseWithin_meaning headed given, eraseWithin_meaning headed given']
      exact akin
  | some name =>
      cases ty with
      | named name =>
          rw [meaning, meaning]
          cases params.find? (·.name == name) with
          | some param => exact .some rfl
          | none =>
              dsimp only
              unfold meaningOfName
              split
              · exact .some rfl
              · split
                · exact .some rfl
                · exact rel_map (head name rfl) fun _ _ within => within
      | generic name args =>
          rw [meaning, meaning]
          have args_akin := meanings_akin args bare fun name listed =>
            applied name (List.mem_cons_of_mem _ listed)
          exact rel_bind args_akin fun _ _ args_akin =>
            meaningOfApplied_within (applied name List.mem_cons_self) (head name rfl) args_akin
      | _ => cases headed

/-! ### Rooted and closed meanings -/

theorem isRooted_meaningOfName (rooted : T.Rooted) {name : String} {means : Ty}
    (given : meaningOfName T name = some means) :
    means.isRooted = true ∧ means.isVar = false := by
  rcases meaningOfName_cases given with rfl | rfl | ⟨info, held, rfl⟩
  · exact ⟨rfl, rfl⟩
  · exact ⟨rfl, rfl⟩
  · exact rooted name info held

theorem isRooted_meaningOfApplied (rooted : T.Rooted) {name : String} {args : List Ty}
    (args_rooted : Ty.areRooted args = true) {means : Ty}
    (given : meaningOfApplied T name args = some means) :
    means.isRooted = true ∧ means.isVar = false := by
  rcases meaningOfApplied_cases given with ⟨-, key, value, rfl, rfl⟩ | ⟨info, held, rfl⟩
  · simpa [Ty.areRooted, Ty.isRooted, Ty.isVar] using args_rooted
  · obtain ⟨base, notVar⟩ := rooted name info held
    rw [Ty.isRooted, base, notVar, args_rooted]
    exact ⟨rfl, rfl⟩

mutual

theorem isRooted_meaning (rooted : T.Rooted) : ∀ (ty : WrittenType) {means : Ty},
    ty.meaning T params = some means → means.isRooted = true
  | named name, means, given => by
      rw [meaning] at given
      cases found : params.find? (·.name == name) with
      | some param =>
          rw [found] at given
          cases given
          rfl
      | none =>
          rw [found] at given
          exact (isRooted_meaningOfName rooted given).1
  | generic name args, means, given => by
      rw [meaning] at given
      obtain ⟨args', given_args, given⟩ := Option.bind_eq_some_iff.mp given
      exact (isRooted_meaningOfApplied rooted (areRooted_meanings rooted args given_args) given).1
  | array element, means, given => by
      rw [meaning] at given
      obtain ⟨element', given_element, rfl⟩ := Option.map_eq_some_iff.mp given
      rw [Ty.isRooted]
      exact isRooted_meaning rooted element given_element
  | function inputs result, means, given => by
      rw [meaning] at given
      obtain ⟨inputs', given_inputs, given⟩ := Option.bind_eq_some_iff.mp given
      obtain ⟨result', given_result, rfl⟩ := Option.map_eq_some_iff.mp given
      rw [Ty.isRooted, areRooted_meanings rooted inputs given_inputs,
        isRooted_meaning rooted result given_result]
      rfl
  | ref referent, means, given => by
      rw [meaning] at given
      obtain ⟨referent', given_referent, rfl⟩ := Option.map_eq_some_iff.mp given
      rw [Ty.isRooted]
      exact isRooted_meaning rooted referent given_referent
  | mutRef referent, means, given => by
      rw [meaning] at given
      obtain ⟨referent', given_referent, rfl⟩ := Option.map_eq_some_iff.mp given
      rw [Ty.isRooted]
      exact isRooted_meaning rooted referent given_referent
  | map key value, means, given => by
      rw [meaning] at given
      obtain ⟨key', given_key, given⟩ := Option.bind_eq_some_iff.mp given
      obtain ⟨value', given_value, rfl⟩ := Option.map_eq_some_iff.mp given
      rw [Ty.isRooted, isRooted_meaning rooted key given_key,
        isRooted_meaning rooted value given_value]
      rfl
  | unit, means, given => by
      cases given
      rfl

theorem areRooted_meanings (rooted : T.Rooted) : ∀ (tys : List WrittenType) {means : List Ty},
    meanings T params tys = some means → Ty.areRooted means = true
  | [], means, given => by
      cases given
      rfl
  | ty :: tys, means, given => by
      rw [meanings] at given
      obtain ⟨first, given_first, given⟩ := Option.bind_eq_some_iff.mp given
      obtain ⟨rest, given_rest, rfl⟩ := Option.map_eq_some_iff.mp given
      rw [Ty.areRooted, isRooted_meaning rooted ty given_first,
        areRooted_meanings rooted tys given_rest]
      rfl

end

theorem isVar_meaning (rooted : T.Rooted) {ty : WrittenType}
    (proper : ∀ name, ty = named name → name ∉ params.map TypeParam.name) {means : Ty}
    (given : ty.meaning T params = some means) : means.isVar = false := by
  cases ty with
  | named name =>
      have missing : params.find? (·.name == name) = none := by
        have fresh := proper name rfl
        simpa [List.find?_eq_none] using fresh
      rw [meaning, missing] at given
      exact (isRooted_meaningOfName rooted given).2
  | generic name args =>
      obtain ⟨args', given_args, given⟩ := Option.bind_eq_some_iff.mp given
      exact (isRooted_meaningOfApplied rooted (areRooted_meanings rooted args given_args) given).2
  | unit =>
      cases given
      rfl
  | array element =>
      obtain ⟨element, -, rfl⟩ := Option.map_eq_some_iff.mp given
      rfl
  | function inputs result =>
      obtain ⟨inputs, -, given⟩ := Option.bind_eq_some_iff.mp given
      obtain ⟨result, -, rfl⟩ := Option.map_eq_some_iff.mp given
      rfl
  | ref referent =>
      obtain ⟨referent, -, rfl⟩ := Option.map_eq_some_iff.mp given
      rfl
  | mutRef referent =>
      obtain ⟨referent, -, rfl⟩ := Option.map_eq_some_iff.mp given
      rfl
  | map key value =>
      obtain ⟨key, -, given⟩ := Option.bind_eq_some_iff.mp given
      obtain ⟨value, -, rfl⟩ := Option.map_eq_some_iff.mp given
      rfl

mutual

/-- Where no type parameter is in scope, a written type means a type without variables, if
the names that stand by themselves do. -/
theorem hasVars_meaning : ∀ (ty : WrittenType) {means : Ty},
    (∀ name ∈ ty.bareNames, T.ClosedAt name) → ty.meaning T [] = some means →
    means.hasVars = false
  | named name, means, closed, given => by
      rcases meaningOfName_cases given with rfl | rfl | ⟨info, held, rfl⟩
      · rfl
      · rfl
      · exact closed name (List.mem_singleton_self name) info held
  | generic name args, means, closed, given => by
      rw [meaning] at given
      obtain ⟨args', given_args, given⟩ := Option.bind_eq_some_iff.mp given
      have args_closed := hasVarsAny_meanings args closed given_args
      rcases meaningOfApplied_cases given with ⟨-, key, value, rfl, rfl⟩ | ⟨info, -, rfl⟩
      · simpa [Ty.hasVarsAny, Ty.hasVars] using args_closed
      · exact args_closed
  | array element, means, closed, given => by
      rw [meaning] at given
      obtain ⟨element', given_element, rfl⟩ := Option.map_eq_some_iff.mp given
      rw [Ty.hasVars]
      exact hasVars_meaning element closed given_element
  | function inputs result, means, closed, given => by
      rw [meaning] at given
      obtain ⟨inputs', given_inputs, given⟩ := Option.bind_eq_some_iff.mp given
      obtain ⟨result', given_result, rfl⟩ := Option.map_eq_some_iff.mp given
      rw [Ty.hasVars, hasVarsAny_meanings inputs
        (fun name listed => closed name (List.mem_append_left _ listed)) given_inputs,
        hasVars_meaning result
          (fun name listed => closed name (List.mem_append_right _ listed)) given_result]
      rfl
  | ref referent, means, closed, given => by
      rw [meaning] at given
      obtain ⟨referent', given_referent, rfl⟩ := Option.map_eq_some_iff.mp given
      rw [Ty.hasVars]
      exact hasVars_meaning referent closed given_referent
  | mutRef referent, means, closed, given => by
      rw [meaning] at given
      obtain ⟨referent', given_referent, rfl⟩ := Option.map_eq_some_iff.mp given
      rw [Ty.hasVars]
      exact hasVars_meaning referent closed given_referent
  | map key value, means, closed, given => by
      rw [meaning] at given
      obtain ⟨key', given_key, given⟩ := Option.bind_eq_some_iff.mp given
      obtain ⟨value', given_value, rfl⟩ := Option.map_eq_some_iff.mp given
      rw [Ty.hasVars, hasVars_meaning key
        (fun name listed => closed name (List.mem_append_left _ listed)) given_key,
        hasVars_meaning value
          (fun name listed => closed name (List.mem_append_right _ listed)) given_value]
      rfl
  | unit, means, _, given => by
      cases given
      rfl

theorem hasVarsAny_meanings : ∀ (tys : List WrittenType) {means : List Ty},
    (∀ name ∈ bareNamesAll tys, T.ClosedAt name) → meanings T [] tys = some means →
    Ty.hasVarsAny means = false
  | [], means, _, given => by
      cases given
      rfl
  | ty :: tys, means, closed, given => by
      rw [meanings] at given
      obtain ⟨first, given_first, given⟩ := Option.bind_eq_some_iff.mp given
      obtain ⟨rest, given_rest, rfl⟩ := Option.map_eq_some_iff.mp given
      rw [Ty.hasVarsAny, hasVars_meaning ty
        (fun name listed => closed name (List.mem_append_left _ listed)) given_first,
        hasVarsAny_meanings tys
          (fun name listed => closed name (List.mem_append_right _ listed)) given_rest]
      rfl

end

end WrittenType

/-! ### Declarations -/

namespace Source

/-- The types that are written in the body of a declaration. -/
def TypeBody.written : TypeBody → List WrittenType
  | record fields => fields.map Prod.snd
  | sum variants => variants.flatMap Prod.snd
  | abstract => []
  | synonym target => [target]

/-- The name that a synonym stands for. -/
def TypeBody.head? : TypeBody → Option String
  | synonym target => target.head?
  | _ => none

namespace TypeDecl

/-- The names that stand by themselves in a declaration, its own type parameters apart. -/
def bareNames (decl : TypeDecl) : List String :=
  (WrittenType.bareNamesAll decl.body.written).filter
    fun name => !(decl.typeParams.map TypeParam.name).contains name

/-- The names that have type arguments in a declaration. -/
def appliedNames (decl : TypeDecl) : List String :=
  WrittenType.appliedNamesAll decl.body.written

/-- The declaration is no synonym of one of its own type parameters. -/
def IsProper (decl : TypeDecl) : Prop :=
  ∀ name, decl.body = .synonym (.named name) → name ∉ decl.typeParams.map TypeParam.name

end TypeDecl

section Akin

variable {known : Outlines} {T T' : Meanings} {params : List TypeParam}

theorem fieldMeanings_akin (fields : List (String × WrittenType))
    (bare : ∀ name ∈ WrittenType.bareNamesAll (fields.map Prod.snd),
      name ∉ params.map TypeParam.name → BareAkin known T T' name)
    (applied : ∀ name ∈ WrittenType.appliedNamesAll (fields.map Prod.snd),
      AppliedAkin known T T' name) :
    Option.Rel (Ty.AkinFields known) (fieldMeanings T params fields)
      (fieldMeanings T' params fields) := by
  induction fields with
  | nil => exact .some .nil
  | cons field fields ih =>
      have first : Option.Rel (Ty.Akin known) (field.2.meaning T params)
          (field.2.meaning T' params) := WrittenType.meaning_akin field.2
        (fun name listed => bare name (List.mem_append_left _ listed))
        fun name listed => applied name (List.mem_append_left _ listed)
      have rest := ih (fun name listed => bare name (List.mem_append_right _ listed))
        fun name listed => applied name (List.mem_append_right _ listed)
      exact rel_bind first fun _ _ first => rel_map rest fun _ _ rest => .cons ⟨rfl, first⟩ rest

theorem variantMeanings_akin (variants : List (String × List WrittenType))
    (bare : ∀ name ∈ WrittenType.bareNamesAll (variants.flatMap Prod.snd),
      name ∉ params.map TypeParam.name → BareAkin known T T' name)
    (applied : ∀ name ∈ WrittenType.appliedNamesAll (variants.flatMap Prod.snd),
      AppliedAkin known T T' name) :
    Option.Rel (fun given given' => Ty.eraseVariants known given = Ty.eraseVariants known given')
      (variantMeanings T params variants) (variantMeanings T' params variants) := by
  induction variants with
  | nil => exact .some rfl
  | cons variant variants ih =>
      rw [List.flatMap_cons, WrittenType.bareNamesAll_append] at bare
      rw [List.flatMap_cons, WrittenType.appliedNamesAll_append] at applied
      have first : Option.Rel (Ty.AkinAll known) (WrittenType.meanings T params variant.2)
          (WrittenType.meanings T' params variant.2) := WrittenType.meanings_akin variant.2
        (fun name listed => bare name (List.mem_append_left _ listed))
        fun name listed => applied name (List.mem_append_left _ listed)
      have rest := ih (fun name listed => bare name (List.mem_append_right _ listed))
        fun name listed => applied name (List.mem_append_right _ listed)
      refine rel_bind first fun _ _ first => rel_map rest fun _ _ rest => ?_
      rw [Ty.eraseVariants, Ty.eraseVariants, Ty.akinAll_iff.mp first, rest]

theorem TypeBody.meaning_within (name : String) (body : TypeBody)
    (bare : ∀ name ∈ WrittenType.bareNamesAll body.written, name ∉ params.map TypeParam.name →
      BareAkin known T T' name)
    (applied : ∀ name ∈ WrittenType.appliedNamesAll body.written, AppliedAkin known T T' name)
    (head : ∀ name, body.head? = some name → WithinAkin known T T' name) :
    Option.Rel (fun a b => a.eraseWithin known = b.eraseWithin known)
      (body.meaning T params name) (body.meaning T' params name) := by
  cases body with
  | record fields =>
      refine rel_map (fieldMeanings_akin fields bare applied) fun _ _ akin => ?_
      rw [Ty.eraseWithin, Ty.eraseWithin, Ty.akinFields_iff.mp akin]
  | sum variants =>
      refine rel_map (variantMeanings_akin variants bare applied) fun _ _ akin => ?_
      rw [Ty.eraseWithin, Ty.eraseWithin, akin]
  | abstract => exact .some rfl
  | synonym target =>
      exact WrittenType.meaning_within target
        (fun name listed => bare name (List.mem_append_left _ listed))
        (fun name listed => applied name (List.mem_append_left _ listed)) head

theorem TypeBody.isRooted_meaning (rooted : T.Rooted) {name : String} {body : TypeBody} {ty : Ty}
    (given : body.meaning T params name = some ty) : ty.isRooted = true := by
  cases body with
  | record fields =>
      obtain ⟨_, -, rfl⟩ := Option.map_eq_some_iff.mp given
      rfl
  | sum variants =>
      obtain ⟨_, -, rfl⟩ := Option.map_eq_some_iff.mp given
      rfl
  | abstract =>
      cases given
      rfl
  | synonym target => exact WrittenType.isRooted_meaning rooted target given

theorem TypeBody.isVar_meaning (rooted : T.Rooted) {name : String} {body : TypeBody}
    (proper : ∀ name, body = .synonym (.named name) → name ∉ params.map TypeParam.name) {ty : Ty}
    (given : body.meaning T params name = some ty) : ty.isVar = false := by
  cases body with
  | record fields =>
      obtain ⟨_, -, rfl⟩ := Option.map_eq_some_iff.mp given
      rfl
  | sum variants =>
      obtain ⟨_, -, rfl⟩ := Option.map_eq_some_iff.mp given
      rfl
  | abstract =>
      cases given
      rfl
  | synonym target => exact WrittenType.isVar_meaning rooted (by simpa using proper) given

theorem TypeDecl.meaning_eq_some {decl : TypeDecl} {info : TypeInfo} :
    decl.meaning T = some info ↔ TypeParam.normalize decl.typeParams = .ok info.typeParams ∧
      decl.body.meaning T info.typeParams.reverse decl.name = some info.ty ∧
      info.name = decl.name := by
  unfold TypeDecl.meaning
  constructor
  · intro means
    cases normalized : TypeParam.normalize decl.typeParams with
    | error cause =>
        rw [normalized] at means
        cases means
    | ok typeParams =>
        rw [normalized] at means
        obtain ⟨ty, given, rfl⟩ := Option.map_eq_some_iff.mp means
        exact ⟨rfl, given, rfl⟩
  · rintro ⟨normalized, given, named⟩
    rw [normalized, ← named]
    rw [← named] at given
    exact Option.map_eq_some_iff.mpr ⟨info.ty, given, rfl⟩

theorem TypeDecl.rooted_meaning {decl : TypeDecl} (proper : decl.IsProper) (rooted : T.Rooted)
    {info : TypeInfo} (means : decl.meaning T = some info) :
    info.ty.isRooted = true ∧ info.ty.isVar = false := by
  obtain ⟨normalized, given, -⟩ := TypeDecl.meaning_eq_some.mp means
  refine ⟨TypeBody.isRooted_meaning rooted given,
    TypeBody.isVar_meaning rooted (fun name synonym => ?_) given⟩
  rw [List.map_reverse, TypeParam.names_of_normalize normalized, List.mem_reverse]
  exact proper name synonym

/-- A declaration means akin types where the names that it mentions stand for akin types, and
the name that it is a synonym of for the same but for what is erased within. -/
theorem TypeDecl.meaning_akin {decl : TypeDecl} (proper : decl.IsProper) (rooted : T.Rooted)
    (bare : ∀ name ∈ decl.bareNames, BareAkin known T T' name)
    (applied : ∀ name ∈ decl.appliedNames, AppliedAkin known T T' name)
    (head : ∀ name, decl.body.head? = some name → WithinAkin known T T' name) :
    Option.Rel (TypeInfo.Akin known) (decl.meaning T) (decl.meaning T') := by
  have within : Option.Rel (fun info info' => info.typeParams = info'.typeParams ∧
      info.ty.eraseWithin known = info'.ty.eraseWithin known) (decl.meaning T)
      (decl.meaning T') := by
    unfold TypeDecl.meaning
    cases normalized : TypeParam.normalize decl.typeParams with
    | error cause => exact .none
    | ok typeParams =>
        have outside {name : String} (free : name ∉ typeParams.reverse.map TypeParam.name) :
            name ∉ decl.typeParams.map TypeParam.name := by
          rwa [List.map_reverse, TypeParam.names_of_normalize normalized, List.mem_reverse] at free
        have tys := TypeBody.meaning_within decl.name decl.body
          (fun name listed free => bare name (List.mem_filter.mpr ⟨listed, by
            simpa using outside free⟩)) applied head
        exact rel_map tys fun _ _ within => ⟨rfl, within⟩
  refine rel_imp within fun info info' means _ within => ?_
  obtain ⟨isRooted, notVar⟩ := TypeDecl.rooted_meaning proper rooted means
  exact ⟨within.1, within.2, isRooted, notVar⟩

end Akin

/-! ### Declared types without variables -/

section Closed

variable {T : Meanings}

theorem hasVars_fieldMeanings {fields : List (String × WrittenType)}
    (closed : ∀ name ∈ WrittenType.bareNamesAll (fields.map Prod.snd), T.ClosedAt name)
    {given : List (String × Ty)} (means : fieldMeanings T [] fields = some given) :
    Ty.hasVarsFields given = false := by
  induction fields generalizing given with
  | nil =>
      cases means
      rfl
  | cons field fields ih =>
      obtain ⟨first, given_first, means⟩ := Option.bind_eq_some_iff.mp means
      obtain ⟨rest, given_rest, rfl⟩ := Option.map_eq_some_iff.mp means
      have first_closed := WrittenType.hasVars_meaning field.2
        (fun name listed => closed name (List.mem_append_left _ listed)) given_first
      have rest_closed := ih (fun name listed => closed name (List.mem_append_right _ listed))
        given_rest
      rw [Ty.hasVarsFields, first_closed, rest_closed]
      rfl

theorem hasVars_variantMeanings {variants : List (String × List WrittenType)}
    (closed : ∀ name ∈ WrittenType.bareNamesAll (variants.flatMap Prod.snd), T.ClosedAt name)
    {given : List (String × List Ty)} (means : variantMeanings T [] variants = some given) :
    Ty.hasVarsVariants given = false := by
  induction variants generalizing given with
  | nil =>
      cases means
      rfl
  | cons variant variants ih =>
      rw [List.flatMap_cons, WrittenType.bareNamesAll_append] at closed
      obtain ⟨first, given_first, means⟩ := Option.bind_eq_some_iff.mp means
      obtain ⟨rest, given_rest, rfl⟩ := Option.map_eq_some_iff.mp means
      have first_closed := WrittenType.hasVarsAny_meanings variant.2
        (fun name listed => closed name (List.mem_append_left _ listed)) given_first
      have rest_closed := ih (fun name listed => closed name (List.mem_append_right _ listed))
        given_rest
      rw [Ty.hasVarsVariants, first_closed, rest_closed]
      rfl

/-- A declaration without type parameters means a type without variables. -/
theorem TypeDecl.hasVars_meaning {decl : TypeDecl} (plain : decl.typeParams = [])
    (closed : ∀ name ∈ decl.bareNames, T.ClosedAt name) {info : TypeInfo}
    (means : decl.meaning T = some info) : info.ty.hasVars = false := by
  have listed {name : String} (bare : name ∈ WrittenType.bareNamesAll decl.body.written) :
      T.ClosedAt name :=
    closed name (List.mem_filter.mpr ⟨bare, by simp [plain]⟩)
  unfold TypeDecl.meaning at means
  rw [plain] at means
  obtain ⟨ty, given, rfl⟩ : ∃ ty, decl.body.meaning T [] decl.name = some ty ∧
      { name := decl.name, ty, typeParams := [] } = info := Option.map_eq_some_iff.mp means
  show ty.hasVars = false
  clear means
  revert listed given
  cases decl.body with
  | record fields =>
      intro listed given
      obtain ⟨fields', means, rfl⟩ := Option.map_eq_some_iff.mp given
      exact hasVars_fieldMeanings (fun _ => listed) means
  | sum variants =>
      intro listed given
      obtain ⟨variants', means, rfl⟩ := Option.map_eq_some_iff.mp given
      exact hasVars_variantMeanings (fun _ => listed) means
  | abstract =>
      intro _ means
      cases means
      rfl
  | synonym target =>
      intro listed means
      exact WrittenType.hasVars_meaning target
        (fun name bare => listed (List.mem_append_left _ bare)) means

end Closed

/-! ### Signatures -/

section Signatures

variable {known : Outlines} {T T' : Meanings}

/-- What is known of every name, applied or by itself, is akin. -/
theorem Function.meaning_akin
    (akin : ∀ name, Option.Rel (TypeInfo.Akin known) (T name) (T' name)) (outer : List TypeParam)
    (decl : Function) :
    Option.Rel (fun sig sig' => sig.Akin known sig' ∧ sig.isRooted = true) (decl.meaning T outer)
      (decl.meaning T' outer) := by
  have bare (name : String) : BareAkin known T T' name :=
    rel_imp (akin name) fun _ _ _ _ infos => infos.ty_akin
  have applied (name : String) : AppliedAkin known T T' name :=
    rel_imp (akin name) fun _ _ _ _ infos =>
      ⟨infos.typeParams, Ty.eraseBase_of_eraseWithin infos.ty⟩
  have rooted : T.Rooted := fun name info held => by
    have found := akin name
    rw [held] at found
    generalize T' name = info' at found
    cases found with
    | some infos => exact ⟨infos.rooted, infos.notVar⟩
  unfold Function.meaning
  cases TypeParam.normalize decl.typeParams with
  | error cause => exact .none
  | ok typeParams =>
      have params : Option.Rel (fun tys tys' => Ty.AkinAll known tys tys' ∧
          Ty.areRooted tys = true)
          (WrittenType.meanings T (typeParams.reverse ++ outer) (decl.params.map Param.ty))
          (WrittenType.meanings T' (typeParams.reverse ++ outer) (decl.params.map Param.ty)) :=
        rel_imp (WrittenType.meanings_akin _ (fun name _ _ => bare name) fun name _ => applied name)
          fun _ _ given _ akin => ⟨akin, WrittenType.areRooted_meanings rooted _ given⟩
      have result : Option.Rel (fun ty ty' => Ty.Akin known (ty.getD .void) (ty'.getD .void) ∧
          (ty.getD .void).isRooted = true)
          (WrittenType.meaning? T (typeParams.reverse ++ outer) decl.result)
          (WrittenType.meaning? T' (typeParams.reverse ++ outer) decl.result) := by
        cases decl.result with
        | none => exact .some ⟨rfl, rfl⟩
        | some ty =>
            refine rel_map (rel_imp (WrittenType.meaning_akin ty (fun name _ _ => bare name)
              fun name _ => applied name) fun ty ty' given _ akin =>
                (⟨akin, WrittenType.isRooted_meaning rooted _ given⟩ :
                  ty.Akin known ty' ∧ ty.isRooted = true)) fun _ _ akin => akin
      dsimp only [Except.toOption, Option.bind_some]
      refine rel_bind params fun _ _ params => rel_map result fun _ _ result => ?_
      refine ⟨⟨rfl, params.1, result.1, rfl⟩, ?_⟩
      rw [Signature.isRooted, params.2, result.2]
      rfl

end Signatures

end Source

end ModuleTyping
