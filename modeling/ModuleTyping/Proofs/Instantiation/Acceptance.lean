import ModuleTyping.Instantiation
import ModuleTyping.Proofs.Outcomes
import ModuleTyping.Proofs.Ty.Substitution
import ModuleTyping.Proofs.Unification.Agreement

/-!
# Which calls of generic functions are accepted

Working out a call binds the type parameters, checks their constraints and compares the
arguments with the parameters. A check that succeeds announces nothing, whatever was announced
before it, so a call is accepted or not by its types alone: `accepts_solve` says when, and what
the call then comes to.

All comparisons go by name. Arguments for one type variable are therefore known to have one
name, up to its spelling, but not to be equivalent: what they are arrays or applications of is
looked at by none of the three steps (`accepts_of_same_name`).
-/

namespace ModuleTyping

open Ty (bindVars meetingsAll)

namespace Check

variable {α β : Type}

/-- The check succeeds with the results that have the property and with no others, and leaves
the announcements as they are when it does. -/
structure Accepts (x : Check α) (results : α → Prop) : Prop where
  ok_iff : ∀ announced a after, x announced = (.ok a, after) ↔ results a ∧ after = announced

namespace Accepts

theorem pure (a : α) : Accepts (Pure.pure a : Check α) (· = a) := by
  refine ⟨fun announced b after => ?_⟩
  constructor
  · intro ran
    cases ran
    exact ⟨rfl, rfl⟩
  · rintro ⟨rfl, rfl⟩
    rfl

theorem fail (cause : Cause) (origin : Origin) :
    Accepts (Check.fail cause origin : Check α) fun _ => False := by
  refine ⟨fun announced a after => ?_⟩
  constructor
  · rintro ⟨⟩
  · rintro ⟨⟨⟩, -⟩

theorem announce_fail (mismatch : Mismatch) (cause : Cause) (origin : Origin) :
    Accepts (do announce mismatch; Check.fail cause origin : Check α) fun _ => False := by
  refine ⟨fun announced a after => ?_⟩
  constructor
  · rintro ⟨⟩
  · rintro ⟨⟨⟩, -⟩

theorem bind {x : Check α} {f : α → Check β} {first : α → Prop} {rest : α → β → Prop}
    (accepts : Accepts x first) (next : ∀ a, Accepts (f a) (rest a)) :
    Accepts (x >>= f) fun b => ∃ a, first a ∧ rest a b := by
  refine ⟨fun announced b after => ?_⟩
  constructor
  · intro ran
    obtain ⟨a, middle, ran, ran'⟩ := Stateful.ok_of_bind ran
    obtain ⟨held, rfl⟩ := (accepts.ok_iff announced a middle).mp ran
    obtain ⟨held', rfl⟩ := ((next a).ok_iff middle b after).mp ran'
    exact ⟨⟨a, held, held'⟩, rfl⟩
  · rintro ⟨⟨a, held, held'⟩, rfl⟩
    rw [Stateful.bind_apply, (accepts.ok_iff after a after).mpr ⟨held, rfl⟩]
    exact ((next a).ok_iff after b after).mpr ⟨held', rfl⟩

theorem ite {p : Prop} [Decidable p] {x y : Check α} {yes no : α → Prop} (pos : Accepts x yes)
    (neg : Accepts y no) : Accepts (if p then x else y) fun a => if p then yes a else no a := by
  by_cases holds : p
  · simpa only [if_pos holds] using pos
  · simpa only [if_neg holds] using neg

theorem congr {x : Check α} {results results' : α → Prop} (accepts : Accepts x results)
    (same : ∀ a, results a ↔ results' a) : Accepts x results' := by
  refine ⟨fun announced a after => ?_⟩
  rw [accepts.ok_iff announced a after, same]

theorem fst_eq_ok_iff {x : Check α} {results : α → Prop} (accepts : Accepts x results)
    {announced : List Mismatch} {a : α} : (x.run announced).1 = .ok a ↔ results a := by
  constructor
  · intro ran
    exact ((accepts.ok_iff announced a (x.run announced).2).mp (Prod.ext ran rfl)).1
  · intro held
    exact congrArg Prod.fst ((accepts.ok_iff announced a announced).mpr ⟨held, rfl⟩)

/-- What comes after a condition that ends the check where it does not hold. -/
theorem guarded {p : Prop} [Decidable p] {cause : Cause} {origin : Origin}
    {rest : Unit → Check α} {results : α → Prop} (next : Accepts (rest ()) results) :
    Accepts (if p then rest () else Check.fail cause origin >>= rest) fun a => p ∧ results a := by
  by_cases holds : p
  · rw [if_pos holds]
    exact next.congr fun _ => (and_iff_right holds).symm
  · rw [if_neg holds]
    exact ((fail cause origin).bind fun (_ : Unit) => next).congr fun _ => by simp [holds]

end Accepts

theorem accepts_compatible (actual expected : Ty) (context : String) (origin : Origin) :
    Accepts (compatible actual expected context origin) fun _ =>
      actual.usableAs expected = true := by
  refine (Accepts.ite (.pure ()) (.announce_fail _ _ origin)).congr fun _ => ?_
  simp

theorem accepts_arguments (context : Nat → String) (origin : Origin) (number : Nat)
    (args params : List Ty) :
    Accepts (arguments context origin number args params) fun _ =>
      ∀ pair ∈ args.zip params, pair.1.usableAs pair.2 = true := by
  induction args generalizing number params with
  | nil => exact (Accepts.pure ()).congr (by simp)
  | cons arg args ih =>
      cases params with
      | nil => exact (Accepts.pure ()).congr (by simp)
      | cons param params =>
          refine ((accepts_compatible arg param (context number) origin).bind
            fun _ => ih (number + 1) params).congr fun _ => ?_
          simp

end Check

open Check (Accepts)

/-- The parameter has no constraint, or it is not bound, or its binding meets the constraint. -/
def TypeParam.MetUnder (bindings : Bindings) (param : TypeParam) : Prop :=
  ∀ constraint bound, param.constraint = some constraint →
    bindings.get? param.name = some bound → bound.satisfies constraint = true

namespace Instantiation

theorem accepts_bindArguments (name : String) (origin : Origin) (number : Nat)
    (bindings : Bindings) (params args : List Ty) :
    Accepts (bindArguments name origin number bindings params args) fun bound =>
      bindVars bindings (meetingsAll params args) = (.ok (), bound) := by
  induction params generalizing number bindings args with
  | nil => exact (Accepts.pure bindings).congr (by simp [meetingsAll, bindVars, eq_comm])
  | cons param params ih =>
      cases args with
      | nil => exact (Accepts.pure bindings).congr (by simp [meetingsAll, bindVars, eq_comm])
      | cons arg args =>
          rw [bindArguments, meetingsAll, Ty.bindVars_append, ← Ty.unify_eq]
          rcases param.unify bindings arg with ⟨conflict | _, next⟩
          · exact (Accepts.announce_fail _ _ origin).congr (by simp)
          · exact ih (number + 1) next args

theorem accepts_checkConstraints (bindings : Bindings) (origin : Origin)
    (typeParams : List TypeParam) :
    Accepts (checkConstraints bindings origin typeParams) fun _ =>
      ∀ param ∈ typeParams, param.MetUnder bindings := by
  induction typeParams with
  | nil => exact (Accepts.pure ()).congr (by simp)
  | cons param typeParams ih =>
      rw [checkConstraints]
      cases demanded : param.constraint with
      | none => exact ih.congr fun _ => by simp [TypeParam.MetUnder, demanded]
      | some constraint =>
          cases held : bindings.get? param.name with
          | none => exact ih.congr fun _ => by simp [TypeParam.MetUnder, held]
          | some bound =>
              refine (Accepts.guarded ih).congr fun _ => ?_
              simp [TypeParam.MetUnder, demanded, held]

/-- The signature under bindings of its type parameters. -/
def under (sig : Signature) (bindings : Bindings) : Instantiation where
  bindings
  params := sig.params.map (·.subst bindings)
  result := sig.result.subst bindings

/-- The bindings meet the constraints, and under them the arguments are usable as the
parameters. -/
structure Admits (sig : Signature) (args : List Ty) (bindings : Bindings) : Prop where
  constraints : ∀ param ∈ sig.typeParams, param.MetUnder bindings
  usable : ∀ pair ∈ args.zip sig.params, pair.1.usableAs (pair.2.subst bindings) = true

/-- A call of a generic function is accepted if it has the right number of arguments, they can
be unified with the parameters, and the bindings that come of it, with the type that the
context expects, admit them. -/
theorem accepts_solve {sig : Signature} (generic : sig.isGeneric = true) (args : List Ty)
    (name : String) (expected : Option Ty) (origin : Origin) :
    Accepts (solve sig args name expected origin) fun inst =>
      args.length = sig.params.length ∧ ∃ bound,
        bindVars ∅ (meetingsAll sig.params args) = (.ok (), bound) ∧
        Admits sig args (refine sig expected bound) ∧
        inst = under sig (refine sig expected bound) := by
  unfold solve
  rw [if_pos generic]
  refine .guarded ?_
  have steps := (accepts_bindArguments name origin 1 ∅ sig.params args).bind fun bound =>
    (accepts_checkConstraints (refine sig expected bound) origin sig.typeParams).bind fun _ =>
    (Check.accepts_arguments (Check.argumentContext name) origin 1 args
      (sig.params.map (·.subst (refine sig expected bound)))).bind fun _ =>
    Accepts.pure (under sig (refine sig expected bound))
  refine steps.congr fun inst => ?_
  refine exists_congr fun bound => and_congr_right fun _ => ?_
  rw [List.zip_map_right, List.forall_mem_map]
  constructor
  · rintro ⟨_, constraints, _, usable, rfl⟩
    exact ⟨⟨constraints, usable⟩, rfl⟩
  · rintro ⟨⟨constraints, usable⟩, rfl⟩
    exact ⟨(), constraints, (), usable, rfl⟩

end Instantiation

/-! ### Arguments for one type variable -/

namespace Ty

theorem usableAs_of_isVar {actual expected : Ty} (isVar : expected.isVar = true) :
    actual.usableAs expected = true := by
  simp [usableAs, isVar]

theorem usableAs_of_normalName {actual expected : Ty}
    (named : actual.normalName = expected.normalName) : actual.usableAs expected = true := by
  simp [usableAs, named]

/-- A type is usable as a variable if it is usable as what the variable is bound to. A variable
that is bound to itself makes no difference to one that is not bound. -/
theorem usableAs_subst_var (actual : Ty) (bindings : Bindings) (name : String)
    (constraint : Option String) :
    actual.usableAs ((var name constraint).subst bindings) =
      (bindings.get? name).all actual.usableAs := by
  rw [subst_var]
  cases bindings.get? name with
  | none => exact usableAs_of_isVar rfl
  | some bound =>
      dsimp only [Option.all_some]
      split
      · next self =>
          have isVar : bound.isVar = true := by
            cases bound with
            | var => rfl
            | _ => cases self
          rw [usableAs_of_isVar isVar, usableAs_of_isVar rfl]
      · rfl

/-- What is put in place of its variables makes no difference to a parameter that is no variable
itself. -/
theorem usableAs_subst (actual : Ty) (bindings : Bindings) {param : Ty}
    (notVar : param.isVar = false) :
    actual.usableAs (param.subst bindings) = actual.usableAs param := by
  have shape : (param.subst bindings).isVar = false ∧
      (param.subst bindings).isAuto = param.isAuto := by
    cases param with
    | var => cases notVar
    | array => rw [subst_array]; exact ⟨rfl, rfl⟩
    | generic => rw [subst_generic]; exact ⟨rfl, rfl⟩
    | function => rw [subst_function]; exact ⟨rfl, rfl⟩
    | record => rw [subst_record]; exact ⟨rfl, rfl⟩
    | sum => rw [subst_sum]; exact ⟨rfl, rfl⟩
    | _ => exact ⟨rfl, rfl⟩
  simp only [usableAs, shape, notVar, normalName, name_subst bindings notVar]

theorem not_placeholder_of_numeric {name : String} (numeric : isNumericName name = true) :
    isPlaceholderName name = false := by
  have none_is : (numericNames.all fun name => !isPlaceholderName name) = true := by decide
  simpa using List.all_eq_true.mp none_is name (List.contains_iff_mem.mp numeric)

theorem normalName_of_isAuto {ty : Ty} (auto : ty.isAuto = true) : ty.normalName = "auto" := by
  cases ty with
  | primitive name =>
      obtain rfl : name = "auto" := by simpa [isAuto] using auto
      rfl
  | _ => cases auto

theorem not_isAuto_of_numeric {ty : Ty} (numeric : isNumericName ty.normalName = true) :
    ty.isAuto = false := by
  by_contra auto
  rw [normalName_of_isAuto (by simpa using auto)] at numeric
  exact absurd numeric (by decide)

/-- A type that can share a binding and is usable as it has its name: numbers of different names
can share one, but are not usable for each other. -/
theorem normalName_eq_of_usableAs {bound actual : Ty} (concrete : bound.isVar = false)
    (concrete' : actual.isVar = false) (clear : bound.clashes actual = false)
    (usable : actual.usableAs bound = true) : actual.normalName = bound.normalName := by
  by_cases same : bound.normalName = actual.normalName
  · exact same.symm
  · have distinct : bound.name ≠ actual.name :=
      fun same' => same (congrArg ModuleTyping.normalName same')
    -- Types of different names share a binding only if they are numbers.
    have numeric :
        isNumericName bound.normalName = true ∧ isNumericName actual.normalName = true := by
      simpa [clashes, shareable, isNumeric, concrete, concrete', distinct, same] using clear
    simpa [usableAs, concrete, not_isAuto_of_numeric numeric.1, not_isAuto_of_numeric numeric.2,
      not_placeholder_of_numeric numeric.1] using usable

end Ty

namespace Instantiation

theorem allYield_refine (sig : Signature) (expected : Option Ty) (bindings : Bindings) :
    Ty.AllYield bindings (refine sig expected bindings) := by
  unfold refine
  cases expected with
  | none => exact .refl bindings
  | some expected =>
      dsimp only
      split
      · exact .refl bindings
      · rw [Ty.unify_eq]
        have yield := Ty.allYield_bindVars bindings (sig.result.meetings expected)
        generalize bindVars bindings (sig.result.meetings expected) = run at yield ⊢
        rcases run with ⟨conflict | _, refined⟩
        · exact .refl bindings
        · exact yield

/-- Where a variable is a parameter of its own, an accepted call binds it to a type of the name
that its argument has. -/
theorem binding_of_argument {sig : Signature} {args : List Ty} {expected : Option Ty}
    {bound : Bindings} (ran : bindVars ∅ (meetingsAll sig.params args) = (.ok (), bound))
    (admits : Admits sig args (refine sig expected bound)) {i : Nat} {name : String}
    {constraint : Option String} {arg : Ty} (param : sig.params[i]? = some (.var name constraint))
    (given : args[i]? = some arg) (concrete : arg.isVar = false) :
    ∃ ty, (refine sig expected bound).get? name = some ty ∧ arg.normalName = ty.normalName := by
  have met : (name, arg) ∈ meetingsAll sig.params args := by
    rw [Ty.meetingsAll_eq, List.mem_flatMap]
    exact ⟨(.var name constraint, arg),
      List.mem_of_getElem? (List.getElem?_zip_eq_some.mpr ⟨param, given⟩), .head _⟩
  obtain ⟨first, held, clear, firm⟩ := Ty.settled_of_bindVars ran _ met
  obtain ⟨ty, held, yields⟩ := allYield_refine sig expected bound name first held
  obtain ⟨firm', named, -⟩ := yields.resolve_left (by simp [firm concrete])
  rw [Ty.clashes_congr (firm concrete) firm' named] at clear
  have usable := admits.usable (arg, .var name constraint)
    (List.mem_of_getElem? (List.getElem?_zip_eq_some.mpr ⟨given, param⟩))
  rw [Ty.usableAs_subst_var, held, Option.all_some] at usable
  exact ⟨ty, held, Ty.normalName_eq_of_usableAs firm' concrete clear usable⟩

/-- Arguments of an accepted call that stand for one type variable, and are no variables
themselves, have one name. They are equivalent unless both are arrays or both are applications. -/
theorem one_variable_one_name {sig : Signature} (generic : sig.isGeneric = true) {args : List Ty}
    {name : String} {expected : Option Ty} {origin : Origin} {announced after : List Mismatch}
    {inst : Instantiation}
    (accepted : (solve sig args name expected origin).run announced = (.ok inst, after))
    {i j : Nat} {T : String} {c d : Option String} (first : sig.params[i]? = some (.var T c))
    (second : sig.params[j]? = some (.var T d)) {a b : Ty} (given : args[i]? = some a)
    (given' : args[j]? = some b) (concrete : a.isVar = false) (concrete' : b.isVar = false) :
    a.normalName = b.normalName ∧
      (a.equivalent b = true ∨ (∃ x y, a = .array x ∧ b = .array y) ∨
        ∃ x y xs ys, a = .generic x xs ∧ b = .generic y ys) := by
  obtain ⟨⟨-, bound, ran, admits, rfl⟩, -⟩ := (accepts_solve generic ..).ok_iff .. |>.mp accepted
  obtain ⟨ty, held, named⟩ := binding_of_argument ran admits first given concrete
  obtain ⟨ty', held', named'⟩ := binding_of_argument ran admits second given' concrete'
  cases held.symm.trans held'
  have same : a.normalName = b.normalName := named.trans named'.symm
  refine ⟨same, ?_⟩
  by_cases apart : a.head = .other ∨ a.head ≠ b.head
  · refine .inl ?_
    rw [Ty.equivalent_of_head apart]
    simpa using same
  · cases a with
    | array x =>
        cases b with
        | array y => exact .inr (.inl ⟨x, y, rfl, rfl⟩)
        | _ => simp [Ty.head] at apart
    | generic x xs =>
        cases b with
        | generic y ys => exact .inr (.inr ⟨x, y, xs, ys, rfl, rfl⟩)
        | _ => simp [Ty.head] at apart
    | var => cases concrete
    | _ => simp [Ty.head] at apart

theorem one_variable_one_name_spellings :
    let sig : Signature := {
      name := "member", params := [.array (.var "T" none), .var "T" none, .var "T" none]
      result := .bool, typeParams := [{ name := "T" }] }
    let args : List Ty := [.array (.primitive "str"), .primitive "string", .primitive "str"]
    let inst : Instantiation := {
      bindings := Dict.ofList [("T", .primitive "str")]
      params := [.array (.primitive "str"), .primitive "str", .primitive "str"], result := .bool }
    (solve sig args "member" none none).run [] = (.ok inst, []) ∧
      (Ty.primitive "string").normalName = (Ty.primitive "str").normalName := by
  intro sig args inst
  have usable : ∀ pair ∈ args.zip sig.params,
      pair.1.usableAs (pair.2.subst inst.bindings) = true := by
    simp only [args, sig, List.zip_cons_cons, List.forall_mem_cons]
    exact ⟨Ty.usableAs_of_normalName rfl, Ty.usableAs_of_normalName rfl,
      Ty.usableAs_of_normalName rfl, by simp⟩
  have admits : Admits sig args inst.bindings := ⟨by simp [sig, TypeParam.MetUnder], usable⟩
  have accepted : (solve sig args "member" none none).run [] = (.ok inst, []) :=
    (accepts_solve rfl ..).ok_iff .. |>.mpr ⟨⟨rfl, inst.bindings, rfl, admits, rfl⟩, rfl⟩
  exact ⟨accepted, (one_variable_one_name rfl accepted (i := 1) (j := 2) rfl rfl rfl rfl rfl rfl).1⟩

/-- The name is all that counts: any two types of one name are accepted for one variable. -/
theorem accepts_of_same_name {sig : Signature} (generic : sig.isGeneric = true) {T : String}
    {c d : Option String} (params : sig.params = [.var T c, .var T d])
    (unconstrained : ∀ param ∈ sig.typeParams, param.constraint = none) {a b : Ty}
    (concrete : a.isVar = false) (concrete' : b.isVar = false)
    (named : a.normalName = b.normalName) (name : String) (expected : Option Ty) (origin : Origin)
    (announced : List Mismatch) :
    ∃ inst, (solve sig [a, b] name expected origin).run announced = (.ok inst, announced) := by
  have clear : a.clashes b = false := Ty.clashes_of_normalName named
  have ran : bindVars ∅ (meetingsAll sig.params [a, b]) =
      (.ok (), (Dict.insert ∅ T a).insert T (a.firmer b)) := by
    rw [params]
    refine Ty.bindVars_cons_eq_ok_iff.mpr ⟨rfl, ?_⟩
    refine Ty.bindVars_cons_eq_ok_iff.mpr ?_
    rw [show Ty.rebound (Dict.get? (∅ : Bindings) T) a = a from rfl, Dict.get?_insert_self]
    exact ⟨by simp [Ty.fitsBinding, clear], rfl⟩
  -- Whatever stays bound has the name of both.
  obtain ⟨ty, held, yields⟩ :=
    allYield_refine sig expected _ T (a.firmer b) (Dict.get?_insert_self (Dict.insert ∅ T a) T _)
  have firm : (a.firmer b).isVar = false ∧ (a.firmer b).normalName = a.normalName := by
    unfold Ty.firmer
    grind
  obtain ⟨-, same, -⟩ := yields.resolve_left (by simp [firm.1])
  have bound : ty.normalName = a.normalName :=
    (congrArg ModuleTyping.normalName same).symm.trans firm.2
  refine ⟨_, (accepts_solve generic ..).ok_iff .. |>.mpr
    ⟨⟨by simp [params], _, ran, ⟨?_, ?_⟩, rfl⟩, rfl⟩⟩
  · intro param member constraint bound demanded
    rw [unconstrained param member] at demanded
    cases demanded
  · intro pair member
    obtain rfl | rfl : pair = (a, .var T c) ∨ pair = (b, .var T d) := by
      simpa [params] using member
    · rw [Ty.usableAs_subst_var, held]
      exact Ty.usableAs_of_normalName bound.symm
    · rw [Ty.usableAs_subst_var, held]
      exact Ty.usableAs_of_normalName (named.symm.trans bound.symm)

/-- Arrays of numbers and of texts are accepted for one type variable. -/
theorem one_variable_two_arrays :
    let sig : Signature := {
      name := "pair", params := [.var "T" none, .var "T" none], result := .var "T" none
      typeParams := [{ name := "T" }] }
    let args : List Ty := [.array .i32, .array .string]
    sig.isGeneric = true ∧ (∀ arg ∈ args, arg.hasVars = false ∧ arg.isAuto = false) ∧
      (∃ inst, (solve sig args "pair" none none).run [] = (.ok inst, [])) ∧
      (Ty.array .i32).equivalent (.array .string) = false := by
  intro sig args
  have accepted : ∃ inst, (solve sig args "pair" none none).run [] = (.ok inst, []) :=
    @accepts_of_same_name sig rfl "T" none none rfl (by simp [sig]) (.array .i32) (.array .string)
      rfl rfl rfl "pair" none none []
  exact ⟨rfl, by simp [args, Ty.hasVars, Ty.isAuto, Ty.i32, Ty.string], accepted, rfl⟩

end Instantiation

end ModuleTyping
