import ModuleTyping.Inference.Members
import ModuleTyping.Inference.Operators
import ModuleTyping.Inference.Records
import ModuleTyping.Proofs.Outcomes
import ModuleTyping.Proofs.Unification.Erasure
import ModuleTyping.Typed.Matching

/-!
# Inference with types known by their names

Types are akin if they differ only in whether they hold declarations or the names that tell
them (`Ty.Akin`), and so are environments, where in the tables of types themselves the
declarations stay (`Environment.Akin`). What inference accepts is the same in akin
environments for akin types, and it comes to akin types: every check of calls, members,
operators, record literals and matches does what its counterpart does.
-/

namespace ModuleTyping

open Stateful (Agree Corresponds)

namespace Ty

/-- The types differ in nothing but declarations in place of the names that tell them. -/
def Akin (known : Outlines) (a b : Ty) : Prop :=
  a.erase known = b.erase known

/-- Lists of akin types. -/
abbrev AkinAll (known : Outlines) : List Ty → List Ty → Prop :=
  List.Forall₂ (Akin known)

variable {known : Outlines} {a b : Ty}

theorem akinAll_iff {as bs : List Ty} :
    AkinAll known as bs ↔ eraseAll known as = eraseAll known bs := by
  rw [eraseAll_eq, eraseAll_eq, ← List.forall₂_eq_eq_eq, List.forall₂_map_left_iff,
    List.forall₂_map_right_iff]
  rfl

namespace Akin

theorem refl (ty : Ty) : Akin known ty ty := rfl

theorem symm (akin : Akin known a b) : Akin known b a := Eq.symm akin

theorem array (akin : Akin known a b) : Akin known (array a) (array b) :=
  congrArg Ty.array akin

theorem function {params params' : List Ty} {result result' : Ty}
    (params_akin : AkinAll known params params') (result_akin : Akin known result result') :
    Akin known (function params result) (function params' result') := by
  unfold Akin at result_akin ⊢
  rw [erase, erase, akinAll_iff.mp params_akin, result_akin]

/-- How two akin types may look: they are built alike from akin types, or both are known by
their names. -/
inductive View (known : Outlines) : Ty → Ty → Prop
  | primitive (name : String) : View known (.primitive name) (.primitive name)
  | array {a b : Ty} (element : Akin known a b) : View known (.array a) (.array b)
  | function {params params' : List Ty} {result result' : Ty}
      (params_akin : AkinAll known params params') (result_akin : Akin known result result') :
      View known (.function params result) (.function params' result')
  | generic {base base' : Ty} {args args' : List Ty}
      (bases : base.eraseBase known = base'.eraseBase known) (args_akin : AkinAll known args args') :
      View known (.generic base args) (.generic base' args')
  | var (name : String) (constraint : Option String) :
      View known (.var name constraint) (.var name constraint)
  | ref {a b : Ty} (referent : Akin known a b) : View known (.ref a) (.ref b)
  | mutRef {a b : Ty} (referent : Akin known a b) : View known (.mutRef a) (.mutRef b)
  | map {key key' value value' : Ty} (key_akin : Akin known key key')
      (value_akin : Akin known value value') : View known (.map key value) (.map key' value')
  | unit : View known .unit .unit
  | nominal {a b : Ty} (first : a.isNominal = true) (second : b.isNominal = true) : View known a b

theorem isNominal (akin : Akin known a b) : a.isNominal = b.isNominal := by
  rw [← isNominal_erase known a, akin, isNominal_erase]

theorem view (akin : Akin known a b) : View known a b := by
  by_cases nominal : a.isNominal = true
  · exact .nominal nominal (akin.isNominal ▸ nominal)
  · have nominal' : b.isNominal = false := by
      rw [← akin.isNominal]
      simpa using nominal
    unfold Akin at akin
    cases a with
    | record _ _ | sum _ _ | abstract _ => exact absurd rfl nominal
    | primitive name =>
        cases b with
        | primitive name' => exact Ty.primitive.inj akin ▸ .primitive name
        | record _ _ | sum _ _ | abstract _ => cases nominal'
        | _ => cases akin
    | array element =>
        cases b with
        | array element' => exact .array (Ty.array.inj akin)
        | record _ _ | sum _ _ | abstract _ => cases nominal'
        | _ => cases akin
    | function params result =>
        cases b with
        | function params' result' =>
            obtain ⟨params_akin, result_akin⟩ := Ty.function.inj akin
            exact .function (akinAll_iff.mpr params_akin) result_akin
        | record _ _ | sum _ _ | abstract _ => cases nominal'
        | _ => cases akin
    | generic base args =>
        cases b with
        | generic base' args' =>
            obtain ⟨bases, args_akin⟩ := Ty.generic.inj akin
            exact .generic bases (akinAll_iff.mpr args_akin)
        | record _ _ | sum _ _ | abstract _ => cases nominal'
        | _ => cases akin
    | var name constraint =>
        cases b with
        | var name' constraint' =>
            obtain ⟨rfl, rfl⟩ := Ty.var.inj akin
            exact .var name constraint
        | record _ _ | sum _ _ | abstract _ => cases nominal'
        | _ => cases akin
    | ref referent =>
        cases b with
        | ref referent' => exact .ref (Ty.ref.inj akin)
        | record _ _ | sum _ _ | abstract _ => cases nominal'
        | _ => cases akin
    | mutRef referent =>
        cases b with
        | mutRef referent' => exact .mutRef (Ty.mutRef.inj akin)
        | record _ _ | sum _ _ | abstract _ => cases nominal'
        | _ => cases akin
    | map key value =>
        cases b with
        | map key' value' =>
            obtain ⟨key_akin, value_akin⟩ := Ty.map.inj akin
            exact .map key_akin value_akin
        | record _ _ | sum _ _ | abstract _ => cases nominal'
        | _ => cases akin
    | unit =>
        cases b with
        | unit => exact .unit
        | record _ _ | sum _ _ | abstract _ => cases nominal'
        | _ => cases akin

/-! #### What akin types have in common -/

section Common

variable (akin : Akin known a b)

include akin

theorem name : a.name = b.name := by
  rw [← name_erase known a, akin, name_erase]

theorem normalName : a.normalName = b.normalName := by
  rw [Ty.normalName, Ty.normalName, akin.name]

theorem isVar : a.isVar = b.isVar := by
  rw [← isVar_erase known a, akin, isVar_erase]

theorem isAuto : a.isAuto = b.isAuto := by
  rw [← isAuto_erase known a, akin, isAuto_erase]

theorem hasVars : a.hasVars = b.hasVars := by
  rw [← hasVars_erase known a, akin, hasVars_erase]

theorem concreteness : a.concreteness = b.concreteness := by
  rw [← concreteness_erase known a, akin, concreteness_erase]

theorem isNumeric : a.isNumeric = b.isNumeric := by
  rw [Ty.isNumeric, Ty.isNumeric, akin.isVar, akin.normalName]

theorem isFloat : a.isFloat = b.isFloat := by
  rw [Ty.isFloat, Ty.isFloat, akin.name]

theorem isString : a.isString = b.isString := by
  rw [Ty.isString, Ty.isString, akin.normalName]

theorem hasNumberMethods : a.hasNumberMethods = b.hasNumberMethods := by
  rw [Ty.hasNumberMethods, Ty.hasNumberMethods, akin.isNumeric, akin.isVar]

theorem usableAsBool : a.usableAsBool = b.usableAsBool := by
  rw [Ty.usableAsBool, Ty.usableAsBool, akin.isVar, akin.isAuto, akin.normalName]

theorem usableAsNumber : a.usableAsNumber = b.usableAsNumber := by
  rw [Ty.usableAsNumber, Ty.usableAsNumber, akin.isAuto, akin.normalName, akin.isNumeric]

theorem satisfies (constraint : String) : a.satisfies constraint = b.satisfies constraint := by
  rw [Ty.satisfies, Ty.satisfies, akin.hasVars, akin.isAuto, akin.normalName]

theorem usableAs {c d : Ty} (akin' : Akin known c d) : a.usableAs c = b.usableAs d := by
  rw [Ty.usableAs, Ty.usableAs, akin.isAuto, akin.normalName, akin'.isAuto, akin'.isVar,
    akin'.normalName]

theorem subst {bindings bindings' : Bindings}
    (same : bindings.mapValues (erase known) = bindings'.mapValues (erase known)) :
    Akin known (a.subst bindings) (b.subst bindings') := by
  unfold Akin at akin ⊢
  rw [erase_subst known bindings, erase_subst known bindings', akin, same]

end Common

end Akin

theorem AkinAll.subst {as bs : List Ty} (akin : AkinAll known as bs) {bindings bindings' : Bindings}
    (same : bindings.mapValues (erase known) = bindings'.mapValues (erase known)) :
    AkinAll known (as.map (·.subst bindings)) (bs.map (·.subst bindings')) := by
  rw [AkinAll, List.forall₂_map_left_iff, List.forall₂_map_right_iff]
  exact akin.imp fun _ _ akin => akin.subst same

theorem AkinAll.singleton {ty : Ty} {tys : List Ty} (akin : AkinAll known [ty] tys) :
    ∃ ty', Akin known ty ty' ∧ tys = [ty'] := by
  cases akin with
  | cons first rest =>
      cases rest
      exact ⟨_, first, rfl⟩

theorem AkinAll.pair {first second : Ty} {tys : List Ty}
    (akin : AkinAll known [first, second] tys) :
    ∃ first', Akin known first first' ∧ ∃ second', Akin known second second' ∧
      tys = [first', second'] := by
  cases akin with
  | cons head rest =>
      obtain ⟨second', akin, rfl⟩ := AkinAll.singleton rest
      exact ⟨_, head, second', akin, rfl⟩

end Ty

/-! ### Checks -/

namespace Check

variable {α β γ δ : Type} {known : Outlines} {a a' b b' : Ty}

/-- Both checks fail, or both pass with related results, whatever was announced before. -/
abbrev Agrees (R : α → β → Prop) (x : Check α) (y : Check β) : Prop :=
  Agree (fun _ _ => True) R x y

theorem agrees_fail {R : α → β → Prop} (cause cause' : Cause) (origin origin' : Origin) :
    Agrees R (fail cause origin) (fail cause' origin') :=
  .throws _ _

theorem agrees_reject {R : α → β → Prop}
    (context context' expected expected' actual actual' : String) (origin origin' : Origin) :
    Agrees R (reject context expected actual origin) (reject context' expected' actual' origin') :=
  ⟨fun _ => trivial⟩

/-- A condition that is wanted, and faults where it does not hold. -/
theorem agrees_guard {R : Unit → Unit → Prop} (holds : R () ()) {p q : Prop} [Decidable p]
    [Decidable q] (same : p ↔ q) {x y : Check Unit} (fails : Agrees R x y) :
    Agrees R (if p then pure () else x) (if q then pure () else y) :=
  .ite same (fun _ => .pure holds) fun _ => fails

theorem agrees_compatible (actual : a.Akin known a') (expected : b.Akin known b')
    (context context' : String) (origin origin' : Origin) :
    Agrees (fun _ _ => True) (compatible a b context origin)
      (compatible a' b' context' origin') := by
  unfold compatible
  rw [actual.usableAs expected]
  exact agrees_guard trivial Iff.rfl (agrees_reject ..)

theorem agrees_boolean (actual : a.Akin known a') (context context' : String)
    (origin origin' : Origin) :
    Agrees (fun _ _ => True) (boolean a context origin) (boolean a' context' origin') := by
  unfold boolean
  rw [actual.usableAsBool]
  exact agrees_guard trivial Iff.rfl (agrees_reject ..)

theorem agrees_numeric (actual : a.Akin known a') (context context' : String)
    (origin origin' : Origin) :
    Agrees (fun _ _ => True) (numeric a context origin) (numeric a' context' origin') := by
  unfold numeric
  rw [actual.usableAsNumber]
  exact agrees_guard trivial Iff.rfl (agrees_reject ..)

theorem agrees_argumentCount {found found' : Nat} (same : found = found') (method : String)
    (expected : Nat) (origin : Origin) :
    Agrees (fun _ _ => True) (argumentCount method found expected origin)
      (argumentCount method found' expected origin) := by
  subst same
  exact agrees_guard trivial Iff.rfl (agrees_fail ..)

theorem agrees_arguments {args args' params params' : List Ty}
    (args_akin : Ty.AkinAll known args args') (params_akin : Ty.AkinAll known params params')
    (context : Nat → String) (origin : Origin) (number : Nat) :
    Agrees (fun _ _ => True) (arguments context origin number args params)
      (arguments context origin number args' params') := by
  induction args_akin generalizing params params' number with
  | nil =>
      rw [arguments, arguments]
      · exact .pure trivial
      all_goals simp
  | cons arg _ ih =>
      cases params_akin with
      | nil =>
          rw [arguments, arguments]
          · exact .pure trivial
          all_goals simp
      | cons param params_akin =>
          rw [arguments, arguments]
          exact Agree.bind (agrees_compatible arg param ..) fun _ _ _ => ih params_akin (number + 1)

theorem agrees_call {sig sig' : Signature} {args args' : List Ty}
    (params : Ty.AkinAll known sig.params sig'.params) (args_akin : Ty.AkinAll known args args')
    (name : String) (origin : Origin) :
    Agrees (fun _ _ => True) (call sig args name origin) (call sig' args' name origin) := by
  unfold call
  rw [args_akin.length_eq, params.length_eq]
  exact .ite Iff.rfl (fun _ => agrees_arguments args_akin params ..) fun _ => agrees_fail ..

end Check

namespace Ty

open Check (Agrees)

variable {known : Outlines} {a b : Ty}

/-! ### Calls of values, methods and operators -/

theorem callResult_nominal (nominal : a.isNominal = true) (args : List Ty) (origin : Origin) :
    a.callResult args origin = Check.fail (.cannotCall a) origin := by
  cases a <;> first | rfl | cases nominal

theorem agrees_callResult (callee : Akin known a b) {args args' : List Ty}
    (args_akin : AkinAll known args args') (origin : Origin) :
    Agrees (Akin known) (a.callResult args origin) (b.callResult args' origin) := by
  cases callee.view with
  | function params_akin result_akin =>
      have counts := args_akin.length_eq
      have counts' := params_akin.length_eq
      refine .guarded (by rw [counts, counts']) ?_
      exact Agree.bind (Check.agrees_arguments args_akin params_akin ..) fun _ _ _ =>
        .pure result_akin
  | nominal first second =>
      rw [callResult_nominal first, callResult_nominal second]
      exact Check.agrees_fail ..
  | primitive name => exact .ite Iff.rfl (fun _ => .pure rfl) fun _ => Check.agrees_fail ..
  | _ => exact Check.agrees_fail ..

theorem agrees_arrayMethod (element : Akin known a b) (method : String) {args args' : List Ty}
    (args_akin : AkinAll known args args') (origin : Origin) :
    Agrees (Akin known) (a.arrayMethod method args origin) (b.arrayMethod method args' origin) := by
  unfold arrayMethod
  have count := args_akin.length_eq
  split
  · exact Agree.bind (Check.agrees_argumentCount count ..) fun _ _ _ => .pure rfl
  · exact Agree.bind (Check.agrees_argumentCount count ..) fun _ _ _ => .pure rfl
  · exact Agree.bind (Check.agrees_argumentCount count ..) fun _ _ _ => .pure rfl
  · obtain ⟨f, f_akin, rfl⟩ := args_akin.singleton
    exact Agree.bind (agrees_callResult f_akin (.cons element .nil) origin) fun _ _ result =>
      .pure result.array
  · obtain ⟨f, f_akin, rfl⟩ := args_akin.singleton
    refine Agree.bind (agrees_callResult f_akin (.cons element .nil) origin) fun _ _ result => ?_
    exact Agree.bind (Check.agrees_boolean result ..) fun _ _ _ => .pure element.array
  · obtain ⟨start, start_akin, f, f_akin, rfl⟩ := args_akin.pair
    refine Agree.bind (agrees_callResult f_akin (.cons start_akin (.cons element .nil)) origin)
      fun _ _ result => ?_
    exact Agree.bind (Check.agrees_compatible result start_akin ..) fun _ _ _ => .pure start_akin
  · next other =>
      cases args_akin with
      | nil => exact Check.agrees_fail ..
      | cons first rest =>
          cases rest with
          | nil => exact (other _ rfl).elim
          | cons => exact Check.agrees_fail ..
  · next other =>
      cases args_akin with
      | nil => exact Check.agrees_fail ..
      | cons first rest =>
          cases rest with
          | nil => exact (other _ rfl).elim
          | cons => exact Check.agrees_fail ..
  · next other =>
      cases args_akin with
      | nil => exact Check.agrees_fail ..
      | cons first rest =>
          cases rest with
          | nil => exact Check.agrees_fail ..
          | cons second rest =>
              cases rest with
              | nil => exact (other _ _ rfl).elim
              | cons => exact Check.agrees_fail ..
  · split <;> first | exact Check.agrees_fail .. | contradiction

theorem agrees_stringMethod (method : String) {args args' : List Ty}
    (args_akin : AkinAll known args args') (origin : Origin) :
    Agrees (Akin known) (stringMethod method args origin) (stringMethod method args' origin) := by
  unfold stringMethod
  have count := args_akin.length_eq
  split
  · obtain ⟨separator, separator_akin, rfl⟩ := args_akin.singleton
    exact Agree.bind (Check.agrees_compatible separator_akin (.refl _) ..) fun _ _ _ => .pure rfl
  · next other =>
      cases args_akin with
      | nil => exact Check.agrees_fail ..
      | cons first rest =>
          cases rest with
          | nil => exact (other _ rfl).elim
          | cons => exact Check.agrees_fail ..
  · exact Agree.bind (Check.agrees_argumentCount count ..) fun _ _ _ => .pure rfl
  · exact Agree.bind (Check.agrees_argumentCount count ..) fun _ _ _ => .pure rfl
  · exact Agree.bind (Check.agrees_argumentCount count ..) fun _ _ _ => .pure rfl
  · exact Agree.bind (Check.agrees_argumentCount count ..) fun _ _ _ => .pure rfl
  · exact Agree.bind (Check.agrees_argumentCount count ..) fun _ _ _ => .pure rfl
  · exact Agree.bind (Check.agrees_argumentCount count ..) fun _ _ _ => .pure rfl
  · exact Agree.bind (Check.agrees_argumentCount count ..) fun _ _ _ => .pure rfl
  · split <;> first | exact Check.agrees_fail .. | contradiction

theorem methodResult_of_ne_array {receiver : Ty} (other : ∀ element, receiver ≠ .array element)
    (method : String) (args : List Ty) (origin : Origin) :
    receiver.methodResult method args origin =
      if receiver.isAuto then pure .auto
      else if receiver.isString then stringMethod method args origin
      else if receiver.hasNumberMethods && method == "sqrt" then do
        Check.argumentCount method args.length 0 origin
        return .f32
      else Check.fail (.unknownMember method receiver) origin := by
  cases receiver with
  | array element => exact absurd rfl (other element)
  | _ => rfl

theorem ne_array_of_akin (akin : Akin known a b) (other : ∀ element, a ≠ .array element) :
    ∀ element, b ≠ .array element := by
  rintro element rfl
  cases akin.symm.view with
  | array => exact other _ rfl
  | nominal first => cases first

theorem agrees_methodResult (receiver : Akin known a b) (method : String) {args args' : List Ty}
    (args_akin : AkinAll known args args') (origin : Origin) :
    Agrees (Akin known) (a.methodResult method args origin)
      (b.methodResult method args' origin) := by
  by_cases isArray : ∃ element, a = .array element
  · obtain ⟨element, rfl⟩ := isArray
    cases receiver.view with
    | array element => exact agrees_arrayMethod element method args_akin origin
    | nominal first => cases first
  · have other : ∀ element, a ≠ .array element := fun element same => isArray ⟨element, same⟩
    rw [methodResult_of_ne_array other,
      methodResult_of_ne_array (ne_array_of_akin receiver other), receiver.isAuto,
      receiver.isString, receiver.hasNumberMethods]
    refine .ite Iff.rfl (fun _ => .pure rfl) fun _ => ?_
    refine .ite Iff.rfl (fun _ => agrees_stringMethod method args_akin origin) fun _ => ?_
    refine .ite Iff.rfl (fun _ => ?_) fun _ => Check.agrees_fail ..
    exact Agree.bind (Check.agrees_argumentCount args_akin.length_eq ..) fun _ _ _ => .pure rfl

theorem property?_nominal (nominal : a.isNominal = true) (member : String) :
    a.property? member = none := by
  cases a <;> first | rfl | cases nominal

theorem property?_eq (object : Akin known a b) (member : String) :
    a.property? member = b.property? member := by
  cases object.view with
  | nominal first second => rw [property?_nominal first, property?_nominal second]
  | _ => rfl

theorem agrees_elementAt {position position' : Ty} (object : Akin known a b)
    (position_akin : Akin known position position') (origin : Origin) :
    Agrees (Akin known) (a.elementAt position origin) (b.elementAt position' origin) := by
  have named {object : Ty} (first : object.isNominal = true) (position : Ty) :
      object.elementAt position origin =
        if object.isString then do
          Check.numeric position "string index" origin
          return .string
        else Check.fail (.cannotIndex object) origin := by
    cases object <;> first | rfl | cases first
  have text : Agrees (Akin known)
      (if a.isString then do
        Check.numeric position "string index" origin
        return .string
      else Check.fail (.cannotIndex a) origin)
      (if b.isString then do
        Check.numeric position' "string index" origin
        return .string
      else Check.fail (.cannotIndex b) origin) := by
    rw [object.isString]
    refine .ite Iff.rfl (fun _ => ?_) fun _ => Check.agrees_fail ..
    exact Agree.bind (Check.agrees_numeric position_akin ..) fun _ _ _ => .pure rfl
  cases object.view with
  | array element =>
      exact Agree.bind (Check.agrees_numeric position_akin ..) fun _ _ _ => .pure element
  | map key value =>
      exact Agree.bind (Check.agrees_compatible position_akin key ..) fun _ _ _ => .pure value
  | nominal first second =>
      rw [named first, named second]
      exact text
  | primitive name => exact .ite Iff.rfl (fun _ => .pure rfl) fun _ => text
  | _ => exact text

theorem Akin.eq_of_isVar (akin : Akin known a b) (isVar : a.isVar = true) : a = b := by
  cases akin.view with
  | var => rfl
  | nominal first =>
      cases a with
      | var name constraint => cases first
      | _ => cases isVar
  | _ => cases isVar

theorem combineNumbers_of_isVar {lhs rhs : Ty} (isVar : lhs.isVar = true)
    (other : rhs.isVar = false) (origin : Origin) :
    lhs.combineNumbers rhs origin = pure rhs := by
  cases lhs with
  | var name constraint => cases rhs <;> first | rfl | cases other
  | _ => cases isVar

theorem combineNumbers_isVar {lhs rhs : Ty} (other : lhs.isVar = false)
    (isVar : rhs.isVar = true) (origin : Origin) :
    lhs.combineNumbers rhs origin = pure lhs := by
  cases rhs with
  | var name constraint => cases lhs <;> first | rfl | cases other
  | _ => cases isVar

theorem combineNumbers_of_not_isVar {lhs rhs : Ty} (other : lhs.isVar = false)
    (other' : rhs.isVar = false) (origin : Origin) :
    lhs.combineNumbers rhs origin =
      if lhs.isAuto then pure rhs
      else if rhs.isAuto then pure lhs
      else if lhs.normalName = rhs.normalName then pure lhs
      else if lhs.isFloat || rhs.isFloat then
        pure (if lhs.name = "f64" ∨ rhs.name = "f64" then .f64 else .f32)
      else Check.fail (.mixedNumbers lhs rhs) origin := by
  unfold combineNumbers
  split
  · cases other
  · cases other
  · cases other'
  · rfl

section Operators

variable {lhs lhs' rhs rhs' : Ty} (lhs_akin : Akin known lhs lhs') (rhs_akin : Akin known rhs rhs')

include lhs_akin rhs_akin

theorem agrees_combineNumbers (origin : Origin) :
    Agrees (Akin known) (lhs.combineNumbers rhs origin) (lhs'.combineNumbers rhs' origin) := by
  have left := lhs_akin.isVar
  have right := rhs_akin.isVar
  cases isVar : lhs.isVar <;> cases isVar' : rhs.isVar <;> rw [isVar] at left <;>
    rw [isVar'] at right
  · rw [combineNumbers_of_not_isVar isVar isVar', combineNumbers_of_not_isVar left.symm right.symm,
      lhs_akin.isAuto, rhs_akin.isAuto, lhs_akin.normalName, rhs_akin.normalName,
      lhs_akin.isFloat, rhs_akin.isFloat, lhs_akin.name, rhs_akin.name]
    refine .ite Iff.rfl (fun _ => .pure rhs_akin) fun _ => ?_
    refine .ite Iff.rfl (fun _ => .pure lhs_akin) fun _ => ?_
    refine .ite Iff.rfl (fun _ => .pure lhs_akin) fun _ => ?_
    exact .ite Iff.rfl (fun _ => .pure rfl) fun _ => Check.agrees_fail ..
  · rw [combineNumbers_isVar isVar isVar', combineNumbers_isVar left.symm right.symm]
    exact .pure lhs_akin
  · rw [combineNumbers_of_isVar isVar isVar', combineNumbers_of_isVar left.symm right.symm]
    exact .pure rhs_akin
  · obtain rfl := lhs_akin.eq_of_isVar isVar
    obtain rfl := rhs_akin.eq_of_isVar isVar'
    cases lhs with
    | var name constraint =>
        cases rhs with
        | var name' constraint' => exact .pure rfl
        | _ => cases isVar'
    | _ => cases isVar

theorem agrees_addResult (origin : Origin) :
    Agrees (Akin known) (lhs.addResult rhs origin) (lhs'.addResult rhs' origin) := by
  unfold addResult
  rw [lhs_akin.isAuto, rhs_akin.isAuto, lhs_akin.isString, rhs_akin.isString, lhs_akin.isNumeric,
    rhs_akin.isNumeric]
  refine .ite Iff.rfl (fun _ => .pure rhs_akin) fun _ => ?_
  refine .ite Iff.rfl (fun _ => .pure lhs_akin) fun _ => ?_
  refine .ite Iff.rfl (fun _ => .pure rfl) fun _ => ?_
  exact .ite Iff.rfl (fun _ => agrees_combineNumbers lhs_akin rhs_akin origin)
    fun _ => Check.agrees_fail ..

theorem akin_quotient : Akin known (lhs.quotient rhs) (lhs'.quotient rhs') := by
  unfold quotient
  rw [lhs_akin.isFloat, rhs_akin.isFloat, lhs_akin.name, rhs_akin.name, lhs_akin.isAuto]
  split
  · exact lhs_akin
  · split
    · exact rhs_akin
    · split
      · exact lhs_akin
      · exact .refl _

theorem agrees_checkNumeric (op : BinaryOp) (origin : Origin) :
    Agrees (fun _ _ => True) (op.checkNumeric lhs rhs origin) (op.checkNumeric lhs' rhs' origin) :=
  Agree.bind (Check.agrees_numeric lhs_akin ..) fun _ _ _ => Check.agrees_numeric rhs_akin ..

theorem agrees_binaryResult (op : BinaryOp) (origin : Origin) :
    Agrees (Akin known) (op.result lhs rhs origin) (op.result lhs' rhs' origin) := by
  cases op with
  | add => exact agrees_addResult lhs_akin rhs_akin origin
  | sub | mul | mod =>
      exact Agree.bind (agrees_checkNumeric lhs_akin rhs_akin ..) fun _ _ _ =>
        agrees_combineNumbers lhs_akin rhs_akin origin
  | div =>
      exact Agree.bind (agrees_checkNumeric lhs_akin rhs_akin ..) fun _ _ _ =>
        .pure (akin_quotient lhs_akin rhs_akin)
  | eq | ne =>
      exact Agree.bind (Check.agrees_compatible rhs_akin lhs_akin ..) fun _ _ _ => .pure rfl
  | lt | gt | le | ge =>
      exact Agree.bind (agrees_checkNumeric lhs_akin rhs_akin ..) fun _ _ _ => .pure rfl
  | and | or =>
      exact Agree.bind (Check.agrees_boolean lhs_akin ..) fun _ _ _ =>
        Agree.bind (Check.agrees_boolean rhs_akin ..) fun _ _ _ => .pure rfl

end Operators

theorem agrees_unaryResult (operand : Akin known a b) (op : UnaryOp) (origin : Origin) :
    Agrees (Akin known) (op.result a origin) (op.result b origin) := by
  cases op with
  | not => exact Agree.bind (Check.agrees_boolean operand ..) fun _ _ _ => .pure rfl
  | neg | plus => exact Agree.bind (Check.agrees_numeric operand ..) fun _ _ _ => .pure operand

end Ty

/-! ### Instantiating signatures -/

namespace Signature

variable {known : Outlines} {sig sig' : Signature}

/-- Signatures that differ in nothing but declarations in place of their names. -/
structure Akin (known : Outlines) (sig sig' : Signature) : Prop where
  name : sig.name = sig'.name
  params : Ty.AkinAll known sig.params sig'.params
  result : sig.result.Akin known sig'.result
  typeParams : sig.typeParams = sig'.typeParams

theorem Akin.toTy (akin : sig.Akin known sig') : sig.toTy.Akin known sig'.toTy :=
  .function akin.params akin.result

/-- No parameter and no result applies a variable. -/
def isRooted (sig : Signature) : Bool :=
  Ty.areRooted sig.params && sig.result.isRooted

end Signature

namespace Instantiation

open Check (Agrees)

variable {known : Outlines} {bindings bindings' : Bindings}

/-- Bindings of the same variables to akin types. -/
def AkinBindings (known : Outlines) (bindings bindings' : Bindings) : Prop :=
  bindings.mapValues (Ty.erase known) = bindings'.mapValues (Ty.erase known)

theorem AkinBindings.get? (akin : AkinBindings known bindings bindings') (name : String) :
    Option.Rel (Ty.Akin known) (bindings.get? name) (bindings'.get? name) := by
  have same := congrArg (·.get? name) akin
  simp only [Dict.get?_mapValues] at same
  rcases bound : bindings.get? name with _ | ty <;> rcases bound' : bindings'.get? name with _ | ty'
  · exact .none
  · simp [bound, bound'] at same
  · simp [bound, bound'] at same
  · rw [bound, bound'] at same
    exact .some (Option.some.inj same)

section Unify

variable {pattern pattern' actual actual' : Ty}

theorem corresponds_of_eraseBound {bound bound' : Except Conflict Unit × Bindings}
    (same : Ty.eraseBound known bound = Ty.eraseBound known bound') :
    Corresponds (AkinBindings known) (fun _ _ => True) bound bound' := by
  have outcomes := congrArg Prod.fst same
  rcases bound with ⟨_ | _, _⟩ <;> rcases bound' with ⟨_ | _, _⟩
  · trivial
  · cases outcomes
  · cases outcomes
  · exact ⟨trivial, congrArg Prod.snd same⟩

/-- Unifying akin types conflicts in both cases or in neither. -/
theorem unify_akin (bound : AkinBindings known bindings bindings')
    (patterns : pattern.Akin known pattern') (rooted : pattern.isRooted = true)
    (actuals : actual.Akin known actual') :
    Corresponds (AkinBindings known) (fun _ _ => True) (pattern.unify bindings actual)
      (pattern'.unify bindings' actual') := by
  have rooted' : pattern'.isRooted = true := by
    rw [← Ty.isRooted_erase known, ← patterns, Ty.isRooted_erase, rooted]
  apply corresponds_of_eraseBound
  rw [← Ty.unify_erase known bindings rooted, ← Ty.unify_erase known bindings' rooted']
  unfold AkinBindings at bound
  unfold Ty.Akin at patterns actuals
  rw [bound, patterns, actuals]

end Unify

theorem agrees_bindArguments (name : String) (origin : Origin) {params params' args args' : List Ty}
    (params_akin : Ty.AkinAll known params params') (rooted : Ty.areRooted params = true)
    (args_akin : Ty.AkinAll known args args') (bound : AkinBindings known bindings bindings')
    (number : Nat) :
    Agrees (AkinBindings known) (bindArguments name origin number bindings params args)
      (bindArguments name origin number bindings' params' args') := by
  induction params_akin generalizing args args' bindings bindings' number with
  | nil =>
      rw [bindArguments, bindArguments]
      · exact .pure bound
      all_goals simp
  | @cons param param' params params' param_akin _ ih =>
      rw [Ty.areRooted, Bool.and_eq_true] at rooted
      cases args_akin with
      | nil =>
          rw [bindArguments, bindArguments]
          · exact .pure bound
          all_goals simp
      | @cons arg arg' args args' arg_akin args_akin =>
          rw [bindArguments, bindArguments]
          obtain ⟨_, _, _, _, ran, ran'⟩ | ⟨_, _, _, _, ran, ran', -, after⟩ :=
            (unify_akin bound param_akin rooted.1 arg_akin).cases
          · rw [ran, ran']
            exact ⟨fun _ => trivial⟩
          · rw [ran, ran']
            exact ih rooted.2 args_akin after (number + 1)

theorem isComplete_eq {sig sig' : Signature} (akin : sig.Akin known sig')
    (bound : AkinBindings known bindings bindings') :
    isComplete sig bindings = isComplete sig' bindings' := by
  unfold isComplete
  rw [akin.typeParams]
  refine congrArg (List.all sig'.typeParams) (funext fun param => ?_)
  generalize first : bindings.get? param.name = found
  generalize second : bindings'.get? param.name = found'
  cases first ▸ second ▸ bound.get? param.name with
  | none => rfl
  | some akin => exact congrArg not akin.isVar

theorem akin_refine {sig sig' : Signature} (akin : sig.Akin known sig')
    (rooted : sig.isRooted = true) {expected expected' : Option Ty}
    (expecteds : Option.Rel (Ty.Akin known) expected expected')
    (bound : AkinBindings known bindings bindings') :
    AkinBindings known (refine sig expected bindings) (refine sig' expected' bindings') := by
  unfold refine
  cases expecteds with
  | none => exact bound
  | @some expected expected' expected_akin =>
      rw [Signature.isRooted, Bool.and_eq_true] at rooted
      dsimp only
      rw [isComplete_eq akin bound]
      split
      · exact bound
      · obtain ⟨_, _, _, _, ran, ran'⟩ | ⟨_, _, _, _, ran, ran', -, after⟩ :=
          (unify_akin bound akin.result rooted.2 expected_akin).cases
        · rw [ran, ran']
          exact bound
        · rw [ran, ran']
          exact after

theorem agrees_checkConstraints (bound : AkinBindings known bindings bindings') (origin : Origin)
    (typeParams : List TypeParam) :
    Agrees (fun _ _ => True) (checkConstraints bindings origin typeParams)
      (checkConstraints bindings' origin typeParams) := by
  induction typeParams with
  | nil => exact .pure trivial
  | cons param typeParams ih =>
      rw [checkConstraints, checkConstraints]
      generalize first : bindings.get? param.name = found
      generalize second : bindings'.get? param.name = found'
      cases param.constraint with
      | none => exact ih
      | some constraint =>
          cases first ▸ second ▸ bound.get? param.name with
          | none => exact ih
          | some akin => exact .guarded (by rw [akin.satisfies]) ih

theorem agrees_solve {sig sig' : Signature} (akin : sig.Akin known sig')
    (rooted : sig.isRooted = true) {args args' : List Ty} (args_akin : Ty.AkinAll known args args')
    {expected expected' : Option Ty} (expecteds : Option.Rel (Ty.Akin known) expected expected')
    (name : String) (origin : Origin) :
    Agrees (fun inst inst' => inst.result.Akin known inst'.result)
      (solve sig args name expected origin) (solve sig' args' name expected' origin) := by
  have generic : sig.isGeneric = sig'.isGeneric := by
    rw [Signature.isGeneric, Signature.isGeneric, akin.typeParams]
  have rooted' := rooted
  rw [Signature.isRooted, Bool.and_eq_true] at rooted'
  unfold solve
  refine .ite (by rw [generic]) (fun _ => ?_) fun _ => ?_
  · refine .guarded (by rw [args_akin.length_eq, akin.params.length_eq]) ?_
    refine Agree.bind (agrees_bindArguments name origin akin.params rooted'.1 args_akin rfl 1)
      fun bound bound' same => ?_
    have refined := akin_refine akin rooted expecteds same
    rw [akin.typeParams]
    refine Agree.bind (agrees_checkConstraints refined origin _) fun _ _ _ => ?_
    refine Agree.bind (Check.agrees_arguments args_akin (akin.params.subst refined) ..)
      fun _ _ _ => ?_
    exact .pure (akin.result.subst refined)
  · refine Agree.bind (Check.agrees_call akin.params args_akin name origin) fun _ _ _ => ?_
    exact .pure akin.result

end Instantiation

end ModuleTyping
