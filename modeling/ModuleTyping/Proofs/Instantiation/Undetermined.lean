import ModuleTyping.Proofs.Instantiation.Acceptance
import ModuleTyping.Proofs.Unification.Clashes

/-!
# Arguments whose types are not determined

An argument of undetermined type is usable as any parameter and meets no variable of a
parameter that is not itself one. So it says nothing: the call is accepted if it would be
accepted without that argument and its parameter. What an accepted call loses with the
argument's type is therefore what that type did for the variables it met. The bindings of the
other variables stay, and bindings that ask for no more than those of the accepted call are
good enough (`Admits.of_undemanding`).

Losing a type can matter. A variable that meets two numbers keeps the first, and without it a
third argument may not fit the second.
-/

namespace ModuleTyping

namespace Ty

/-! ### Bindings in place of others -/

/-- The type is a variable or not determined. -/
def IsOpen (ty : Ty) : Prop :=
  ty.isVar = true ∨ ty.isAuto = true

/-- A variable that is bound to `bound` may as well be bound to the type: that is open, or it is
`bound`, or it has the name of `bound`, which is determined throughout. -/
def CanReplace (ty bound : Ty) : Prop :=
  ty.IsOpen ∨ ty = bound ∨
    (bound.hasVars = false ∧ bound.isAuto = false ∧ ty.normalName = bound.normalName)

/-- What is usable as the first binding is usable as the second, and the second meets the
constraints that the first does. -/
structure Undemanding (first second : Option Ty) : Prop where
  usable : ∀ arg : Ty, first.all arg.usableAs = true → second.all arg.usableAs = true
  satisfies : ∀ constraint, first.all (·.satisfies constraint) = true →
    second.all (·.satisfies constraint) = true

theorem Undemanding.refl (binding : Option Ty) : Undemanding binding binding :=
  ⟨fun _ => id, fun _ => id⟩

theorem usableAs_of_isOpen {expected : Ty} (isOpen : expected.IsOpen) (actual : Ty) :
    actual.usableAs expected = true := by
  rcases isOpen with isVar | isAuto
  · exact usableAs_of_isVar isVar
  · simp [usableAs, isAuto]

theorem satisfies_of_isOpen {ty : Ty} (isOpen : ty.IsOpen) (constraint : String) :
    ty.satisfies constraint = true := by
  rcases isOpen with isVar | isAuto
  · cases ty with
    | var => rfl
    | _ => cases isVar
  · simp [satisfies, isAuto]

theorem undemanding_of_isOpen (first : Option Ty) {second : Option Ty}
    (isOpen : ∀ ty, second = some ty → ty.IsOpen) : Undemanding first second := by
  cases second with
  | none => exact ⟨fun _ _ => rfl, fun _ _ => rfl⟩
  | some ty =>
      exact ⟨fun arg _ => usableAs_of_isOpen (isOpen ty rfl) arg,
        fun constraint _ => satisfies_of_isOpen (isOpen ty rfl) constraint⟩

theorem undemanding_of_canReplace {bound : Ty} {second : Option Ty}
    (replaces : ∀ ty, second = some ty → ty.CanReplace bound) :
    Undemanding (some bound) second := by
  cases second with
  | none => exact ⟨fun _ _ => rfl, fun _ _ => rfl⟩
  | some ty =>
      rcases replaces ty rfl with isOpen | rfl | ⟨closed, determined, named⟩
      · exact undemanding_of_isOpen _ (by rintro _ ⟨⟩; exact isOpen)
      · exact .refl _
      · have notVar : bound.isVar = false := by
          cases bound with
          | var => cases closed
          | _ => rfl
        refine ⟨fun arg usable => ?_, fun constraint meets => ?_⟩
        · simp only [Option.all_some, usableAs, notVar, determined, named] at usable ⊢
          grind
        · simp only [Option.all_some, satisfies, closed, determined, named] at meets ⊢
          grind

theorem not_clashes_of_isOpen {a b : Ty} (isOpen : a.IsOpen) (isOpen' : b.IsOpen) :
    a.clashes b = false := by
  rcases isOpen with isVar | isAuto
  · simp [clashes, isVar]
  rcases isOpen' with isVar | isAuto'
  · simp [clashes, isVar]
  · exact clashes_of_normalName
      ((normalName_of_isAuto isAuto).trans (normalName_of_isAuto isAuto').symm)

section Middle

variable {first middle rest : List (String × Ty)} {full fewer : Bindings}

/-- What is met in the middle of a pass makes no difference to the variables that are not met
there. -/
theorem get?_of_not_met (ran : bindVars ∅ (first ++ (middle ++ rest)) = (.ok (), full))
    (ran' : bindVars ∅ (first ++ rest) = (.ok (), fewer)) {name : String}
    (unmet : ∀ ty, (name, ty) ∉ middle) : full.get? name = fewer.get? name := by
  have none_met : metBy name middle = [] :=
    List.eq_nil_iff_forall_not_mem.mpr fun ty met => unmet ty (mem_metBy.mp met)
  rw [get?_of_bindVars ran, get?_of_bindVars ran']
  simp [metBy_append, none_met]

/-- A pass that succeeds does so without the meetings in its middle. The bindings it then leaves
ask for no more if the types that the variables meet elsewhere can replace those bound. -/
theorem bindVars_without (ran : bindVars ∅ (first ++ (middle ++ rest)) = (.ok (), full))
    (replaces : ∀ name ty, (name, ty) ∈ middle → ∀ other, (name, other) ∈ first ++ rest →
      ∀ bound, full.get? name = some bound → other.CanReplace bound) :
    ∃ fewer, bindVars ∅ (first ++ rest) = (.ok (), fewer) ∧
      ∀ name, Undemanding (full.get? name) (fewer.get? name) := by
  have clear : Clear (first ++ rest) := by
    refine (clear_of_bindVars ran).subset fun meeting met => ?_
    rcases List.mem_append.mp met with met | met <;> simp [met]
  obtain ⟨fewer, ran'⟩ := @bindVars_of_clear ∅ _ clear fun _ _ => rfl
  refine ⟨fewer, ran', fun name => ?_⟩
  by_cases met : ∃ ty, (name, ty) ∈ middle
  · obtain ⟨ty, met⟩ := met
    obtain ⟨bound, held, -⟩ := settled_of_bindVars ran (name, ty) (by simp [met])
    rw [held]
    exact undemanding_of_canReplace fun other held' =>
      replaces name ty met other (mem_of_bindVars ran' held') bound held
  · rw [get?_of_not_met ran ran' fun ty member => met ⟨ty, member⟩]
    exact .refl _

/-- A pass that succeeds does so with more meetings in its middle if all that their variables
meet is open. -/
theorem bindVars_with (ran' : bindVars ∅ (first ++ rest) = (.ok (), fewer))
    (isOpen : ∀ name ty, (name, ty) ∈ middle → ∀ other,
      (name, other) ∈ first ++ (middle ++ rest) → other.IsOpen) :
    ∃ full, bindVars ∅ (first ++ (middle ++ rest)) = (.ok (), full) ∧
      ∀ name, Undemanding (fewer.get? name) (full.get? name) := by
  have clear : Clear (first ++ (middle ++ rest)) := by
    intro name a b met met'
    by_cases added : ∃ ty, (name, ty) ∈ middle
    · obtain ⟨ty, added⟩ := added
      exact not_clashes_of_isOpen (isOpen name ty added a met) (isOpen name ty added b met')
    · have outside : ∀ ty, (name, ty) ∈ first ++ (middle ++ rest) → (name, ty) ∈ first ++ rest := by
        intro ty met
        have unmet : (name, ty) ∉ middle := fun member => added ⟨ty, member⟩
        simpa [unmet] using met
      exact clear_of_bindVars ran' name a b (outside a met) (outside b met')
  obtain ⟨full, ran⟩ := @bindVars_of_clear ∅ _ clear fun _ _ => rfl
  refine ⟨full, ran, fun name => ?_⟩
  by_cases met : ∃ ty, (name, ty) ∈ middle
  · obtain ⟨ty, met⟩ := met
    exact undemanding_of_isOpen _ fun other held =>
      isOpen name ty met other (mem_of_bindVars ran held)
  · rw [get?_of_not_met ran ran' fun ty member => met ⟨ty, member⟩]
    exact .refl _

end Middle

/-! ### One place of a call -/

section Place

variable {params args : List Ty} {i : Nat} {param arg : Ty}

/-- What is met before the place, at the place, and after it. -/
theorem exists_meetingsAll_set (taken : params[i]? = some param) (given : args[i]? = some arg) :
    ∃ first rest,
      (∀ actual, meetingsAll params (args.set i actual) =
        first ++ (param.meetings actual ++ rest)) ∧
      meetingsAll (params.eraseIdx i) (args.eraseIdx i) = first ++ rest := by
  induction i generalizing params args with
  | zero =>
      match params, args with
      | _ :: params, _ :: args =>
        cases taken
        exact ⟨[], meetingsAll params args, fun _ => rfl, rfl⟩
  | succ i ih =>
      match params, args with
      | other :: params, before :: args =>
        obtain ⟨first, rest, met, met'⟩ := @ih params args taken given
        refine ⟨other.meetings before ++ first, rest, fun actual => ?_, ?_⟩
        · rw [List.set_cons_succ, meetingsAll, met, List.append_assoc]
        · rw [List.eraseIdx_cons_succ, List.eraseIdx_cons_succ, meetingsAll, met',
            List.append_assoc]

/-- An undetermined type meets a variable only where that is the parameter. -/
theorem mem_meetings_auto {T : String} {ty : Ty} (met : (T, ty) ∈ param.meetings auto) :
    ty = auto ∧ ∃ constraint, param = .var T constraint := by
  cases param with
  | var name constraint =>
      cases List.mem_singleton.mp met
      exact ⟨rfl, constraint, rfl⟩
  | _ => cases met

theorem forall_zip_set_iff {P : Ty × Ty → Prop} (taken : params[i]? = some param)
    (given : args[i]? = some arg) (actual : Ty) :
    (∀ pair ∈ (args.set i actual).zip params, P pair) ↔
      P (actual, param) ∧ ∀ pair ∈ (args.eraseIdx i).zip (params.eraseIdx i), P pair := by
  induction i generalizing params args with
  | zero =>
      match params, args with
      | _ :: params, _ :: args =>
        cases taken
        exact List.forall_mem_cons
  | succ i ih =>
      match params, args with
      | other :: params, before :: args =>
        rw [List.set_cons_succ, List.eraseIdx_cons_succ, List.eraseIdx_cons_succ,
          List.zip_cons_cons, List.zip_cons_cons, List.forall_mem_cons, List.forall_mem_cons,
          @ih params args taken given, and_left_comm]

end Place

end Ty

/-- The signature without the parameter at a place. -/
def Signature.without (sig : Signature) (i : Nat) : Signature :=
  { sig with params := sig.params.eraseIdx i }

@[simp] theorem Signature.params_without (sig : Signature) (i : Nat) :
    (sig.without i).params = sig.params.eraseIdx i := rfl

@[simp] theorem Signature.isGeneric_without (sig : Signature) (i : Nat) :
    (sig.without i).isGeneric = sig.isGeneric := rfl

open Check (Accepts)
open Ty (bindVars meetingsAll)

namespace Instantiation

/-- Bindings that ask for no more admit the same arguments. -/
theorem Admits.of_undemanding {sig : Signature} {args : List Ty} {bindings others : Bindings}
    (admits : Admits sig args bindings)
    (undemanding : ∀ name, Ty.Undemanding (bindings.get? name) (others.get? name)) :
    Admits sig args others := by
  refine ⟨fun param member constraint bound demanded held => ?_, fun pair member => ?_⟩
  · have met : (bindings.get? param.name).all (·.satisfies constraint) = true := by
      cases before : bindings.get? param.name with
      | none => rfl
      | some first => exact admits.constraints param member constraint first demanded before
    have met' := (undemanding param.name).satisfies constraint met
    rwa [held] at met'
  · have usable := admits.usable pair member
    cases isVar : pair.2.isVar with
    | true =>
        obtain ⟨arg, param⟩ := pair
        cases param with
        | var name constraint =>
            rw [Ty.usableAs_subst_var] at usable ⊢
            exact (undemanding name).usable arg usable
        | _ => cases isVar
    | false =>
        rw [Ty.usableAs_subst _ _ isVar] at usable ⊢
        exact usable

variable {sig : Signature} {args : List Ty} {i : Nat} {param arg : Ty}

/-- The argument at a place is admitted beside the others if it is usable as its parameter. -/
theorem admits_set_iff (taken : sig.params[i]? = some param) (given : args[i]? = some arg)
    (actual : Ty) (bindings : Bindings) :
    Admits sig (args.set i actual) bindings ↔
      actual.usableAs (param.subst bindings) = true ∧
        Admits (sig.without i) (args.eraseIdx i) bindings := by
  constructor
  · rintro ⟨constraints, usable⟩
    obtain ⟨here, elsewhere⟩ := (Ty.forall_zip_set_iff taken given actual).mp usable
    exact ⟨here, constraints, elsewhere⟩
  · rintro ⟨here, constraints, elsewhere⟩
    exact ⟨constraints, (Ty.forall_zip_set_iff taken given actual).mpr ⟨here, elsewhere⟩⟩

/-! ### Calls without an expected type -/

/-- The call is accepted, with these bindings, where nothing is expected of its result. -/
structure Works (sig : Signature) (args : List Ty) (bindings : Bindings) : Prop where
  counted : args.length = sig.params.length
  bound : sig.isGeneric = true → bindVars ∅ (meetingsAll sig.params args) = (.ok (), bindings)
  unbound : sig.isGeneric = false → bindings = ∅
  admits : Admits sig args bindings

theorem usableAs_subst_empty (actual param : Ty) :
    actual.usableAs (param.subst ∅) = actual.usableAs param := by
  cases isVar : param.isVar with
  | true =>
      cases param with
      | var name constraint => rw [Ty.usableAs_subst_var, Ty.usableAs_of_isVar isVar]; rfl
      | _ => cases isVar
  | false => exact Ty.usableAs_subst actual ∅ isVar

theorem accepts_call (sig : Signature) (args : List Ty) (name : String) (origin : Origin) :
    Accepts (Check.call sig args name origin) fun _ =>
      args.length = sig.params.length ∧
        ∀ pair ∈ args.zip sig.params, pair.1.usableAs pair.2 = true := by
  refine (Accepts.ite (Check.accepts_arguments ..) (.fail ..)).congr fun _ => ?_
  split <;> simp [*]

theorem accepts_solve_plain {sig : Signature} (plain : sig.isGeneric = false) (args : List Ty)
    (name : String) (expected : Option Ty) (origin : Origin) :
    Accepts (solve sig args name expected origin) fun inst =>
      args.length = sig.params.length ∧ Admits sig args ∅ ∧
        inst = { bindings := ∅, params := sig.params, result := sig.result } := by
  have unparametrized : sig.typeParams = [] := by simpa [Signature.isGeneric] using plain
  unfold solve
  rw [if_neg (by simp [plain])]
  refine ((accepts_call sig args name origin).bind fun _ => .pure _).congr fun inst => ?_
  constructor
  · rintro ⟨-, ⟨counted, usable⟩, rfl⟩
    refine ⟨counted, ⟨by simp [unparametrized], fun pair member => ?_⟩, rfl⟩
    rw [usableAs_subst_empty]
    exact usable pair member
  · rintro ⟨counted, admits, rfl⟩
    refine ⟨(), ⟨counted, fun pair member => ?_⟩, rfl⟩
    rw [← usableAs_subst_empty]
    exact admits.usable pair member

section Verdict

variable {name : String} {origin : Origin} {announced after : List Mismatch}

theorem works_of_solve {inst : Instantiation}
    (accepted : (solve sig args name none origin).run announced = (.ok inst, after)) :
    Works sig args inst.bindings := by
  cases generic : sig.isGeneric with
  | true =>
      obtain ⟨⟨counted, bound, unified, admits, rfl⟩, -⟩ :=
        (accepts_solve generic ..).ok_iff .. |>.mp accepted
      exact ⟨counted, fun _ => unified, by simp [generic], admits⟩
  | false =>
      obtain ⟨⟨counted, admits, rfl⟩, -⟩ :=
        (accepts_solve_plain generic ..).ok_iff .. |>.mp accepted
      exact ⟨counted, by simp [generic], fun _ => rfl, admits⟩

theorem solve_of_works {bindings : Bindings} (works : Works sig args bindings) :
    ∃ inst, (solve sig args name none origin).run announced = (.ok inst, announced) ∧
      inst.bindings = bindings := by
  obtain ⟨counted, bound, unbound, admits⟩ := works
  cases generic : sig.isGeneric with
  | true =>
      exact ⟨_, (accepts_solve generic ..).ok_iff .. |>.mpr
        ⟨⟨counted, bindings, bound generic, admits, rfl⟩, rfl⟩, rfl⟩
  | false =>
      obtain rfl := unbound generic
      exact ⟨_, (accepts_solve_plain generic ..).ok_iff .. |>.mpr
        ⟨⟨counted, admits, rfl⟩, rfl⟩, rfl⟩

theorem exists_solve_iff :
    (∃ inst, (solve sig args name none origin).run announced = (.ok inst, announced)) ↔
      ∃ bindings, Works sig args bindings := by
  constructor
  · rintro ⟨inst, accepted⟩
    exact ⟨inst.bindings, works_of_solve accepted⟩
  · rintro ⟨bindings, works⟩
    obtain ⟨inst, accepted, -⟩ := solve_of_works works
    exact ⟨inst, accepted⟩

end Verdict

theorem length_set_eq_iff (taken : sig.params[i]? = some param) (given : args[i]? = some arg)
    (actual : Ty) :
    (args.set i actual).length = sig.params.length ↔
      (args.eraseIdx i).length = (sig.without i).params.length := by
  obtain ⟨inside, -⟩ := List.getElem?_eq_some_iff.mp taken
  obtain ⟨inside', -⟩ := List.getElem?_eq_some_iff.mp given
  rw [Signature.params_without, List.length_set, List.length_eraseIdx_of_lt inside,
    List.length_eraseIdx_of_lt inside']
  omega

/-- Without one of its arguments, an accepted call of the remaining parameters is accepted if
what the variables meet elsewhere can replace what they are bound to. -/
theorem Works.without {bindings : Bindings} (works : Works sig args bindings)
    (taken : sig.params[i]? = some param) (given : args[i]? = some arg)
    (replaces : sig.isGeneric = true → ∀ T ty, (T, ty) ∈ param.meetings arg →
      ∀ other, (T, other) ∈ meetingsAll (sig.without i).params (args.eraseIdx i) →
        ∀ bound, bindings.get? T = some bound → other.CanReplace bound) :
    ∃ fewer, Works (sig.without i) (args.eraseIdx i) fewer := by
  have unchanged : args.set i arg = args := by
    obtain ⟨inside, rfl⟩ := List.getElem?_eq_some_iff.mp given
    exact List.set_getElem_self inside
  obtain ⟨counted, bound, unbound, admits⟩ := works
  rw [← unchanged] at admits counted
  have admits' := ((admits_set_iff taken given arg bindings).mp admits).2
  have counted' := (length_set_eq_iff taken given arg).mp counted
  cases generic : sig.isGeneric with
  | false => exact ⟨bindings, counted', by simp [generic], unbound, admits'⟩
  | true =>
      obtain ⟨first, rest, met, met'⟩ := Ty.exists_meetingsAll_set taken given
      have ran := bound generic
      rw [← unchanged, met] at ran
      rw [Signature.params_without, met'] at replaces
      obtain ⟨fewer, ran', undemanding⟩ := Ty.bindVars_without ran (replaces generic)
      refine ⟨fewer, counted', fun _ => ?_, by simp [generic],
        admits'.of_undemanding undemanding⟩
      rw [Signature.params_without, met', ran']

/-- With an undetermined argument at one place, the call is accepted if it is accepted without
that argument. If a variable stands at the place, all that it meets elsewhere must be open. -/
theorem exists_works_set_iff (taken : sig.params[i]? = some param) (given : args[i]? = some arg)
    (isOpen : sig.isGeneric = true → ∀ T constraint, param = .var T constraint → ∀ other,
      (T, other) ∈ meetingsAll (sig.without i).params (args.eraseIdx i) → other.IsOpen) :
    (∃ bindings, Works sig (args.set i .auto) bindings) ↔
      ∃ bindings, Works (sig.without i) (args.eraseIdx i) bindings := by
  constructor
  · rintro ⟨bindings, works⟩
    have given' : (args.set i .auto)[i]? = some Ty.auto :=
      List.getElem?_set_self (List.getElem?_eq_some_iff.mp given).1
    have erased : (args.set i .auto).eraseIdx i = args.eraseIdx i := List.eraseIdx_set_eq
    rw [← erased] at isOpen ⊢
    refine works.without taken given' fun generic T ty met other met' bound _ => ?_
    obtain ⟨-, constraint, same⟩ := Ty.mem_meetings_auto met
    exact .inl (isOpen generic T constraint same other met')
  · rintro ⟨bindings, counted, bound, unbound, admits⟩
    have usable (bindings : Bindings) : Ty.auto.usableAs (param.subst bindings) = true := by
      simp [Ty.usableAs, show Ty.auto.isAuto = true from rfl]
    have counted' := (length_set_eq_iff taken given .auto).mpr counted
    cases generic : sig.isGeneric with
    | false =>
        exact ⟨bindings, counted', by simp [generic], fun _ => unbound generic,
          (admits_set_iff taken given ..).mpr ⟨usable bindings, admits⟩⟩
    | true =>
        obtain ⟨first, rest, met, met'⟩ := Ty.exists_meetingsAll_set taken given
        have ran' := bound generic
        rw [Signature.params_without, met'] at ran' isOpen
        -- The variable meets an undetermined type at the place and open ones elsewhere.
        have isOpen' : ∀ T ty, (T, ty) ∈ param.meetings .auto → ∀ other,
            (T, other) ∈ first ++ (param.meetings .auto ++ rest) → other.IsOpen := by
          intro T ty here other there
          obtain ⟨-, constraint, same⟩ := Ty.mem_meetings_auto here
          by_cases again : (T, other) ∈ param.meetings .auto
          · rw [(Ty.mem_meetings_auto again).1]
            exact .inr rfl
          · exact isOpen generic T constraint same other (by simpa [again] using there)
        obtain ⟨full, ran, undemanding⟩ := Ty.bindVars_with ran' isOpen'
        refine ⟨full, counted', fun _ => by rw [met, ran], by simp [generic], ?_⟩
        exact (admits_set_iff taken given ..).mpr
          ⟨usable full, admits.of_undemanding undemanding⟩

/-- An argument of undetermined type says nothing about a call in which nothing is expected of
the result: the call is accepted if it is accepted without that argument and its parameter. So
an accepted call stays accepted when one of its arguments becomes undetermined, as long as what
the variables of its parameter meet elsewhere can replace what they are bound to. If the
parameter is itself a variable, all that this meets elsewhere must be open. -/
theorem undetermined_argument_says_nothing (taken : sig.params[i]? = some param)
    (given : args[i]? = some arg)
    (isOpen : sig.isGeneric = true → ∀ T constraint, param = .var T constraint → ∀ other,
      (T, other) ∈ meetingsAll (sig.without i).params (args.eraseIdx i) → other.IsOpen)
    (name : String) (origin : Origin) (announced : List Mismatch) :
    ((∃ inst, (solve sig (args.set i .auto) name none origin).run announced =
        (.ok inst, announced)) ↔
      ∃ inst, (solve (sig.without i) (args.eraseIdx i) name none origin).run announced =
        (.ok inst, announced)) ∧
    ∀ inst after, (solve sig args name none origin).run announced = (.ok inst, after) →
      (sig.isGeneric = true → ∀ T ty, (T, ty) ∈ param.meetings arg → ∀ other,
        (T, other) ∈ meetingsAll (sig.without i).params (args.eraseIdx i) →
          ∀ bound, inst.bindings.get? T = some bound → other.CanReplace bound) →
      ∃ inst, (solve sig (args.set i .auto) name none origin).run announced =
        (.ok inst, announced) := by
  have verdict := exists_works_set_iff taken given isOpen
  simp only [exists_solve_iff]
  exact ⟨verdict, fun inst after accepted replaces =>
    verdict.mpr ((works_of_solve accepted).without taken given replaces)⟩

/-- The first argument shares a constrained variable with the second. -/
theorem undetermined_argument_says_nothing_shared :
    let sig : Signature := {
      name := "count", params := [.array (.var "T" none), .var "T" none, .var "U" none]
      result := .unit
      typeParams := [{ name := "T", constraint := some "Numeric" }, { name := "U" }] }
    let args : List Ty := [.array .i32, .i32, .string]
    (∃ inst, (solve sig args "count" none none).run [] = (.ok inst, [])) ∧
      ∃ inst, (solve sig [.auto, .i32, .string] "count" none none).run [] = (.ok inst, []) := by
  intro sig args
  have constraints : ∀ param ∈ sig.typeParams,
      param.MetUnder (Dict.ofList [("T", .i32), ("U", .string)]) := by
    refine List.forall_mem_cons.mpr ⟨?_, List.forall_mem_singleton.mpr ?_⟩
    · intro constraint bound demanded held
      cases demanded
      cases held
      decide
    · intro constraint bound demanded
      cases demanded
  have works : Works sig args (Dict.ofList [("T", .i32), ("U", .string)]) :=
    ⟨rfl, fun _ => rfl, by simp [sig, Signature.isGeneric], constraints, by decide⟩
  obtain ⟨inst, accepted, bindings⟩ := solve_of_works works
  refine ⟨⟨inst, accepted⟩, ?_⟩
  refine (@undetermined_argument_says_nothing sig args 0 _ _ rfl rfl ?_ "count" none []).2
    inst [] accepted ?_
  · rintro - T constraint ⟨⟩
  · rw [bindings]
    intro _ T ty met other met' bound held
    cases List.mem_singleton.mp met
    obtain rfl : other = .i32 := by
      simpa [sig, args, meetingsAll, Ty.meetings] using met'
    cases held
    exact .inr (.inl rfl)

/-- A variable keeps the first of two numbers that it meets. When the argument that has the first
becomes undetermined, the second is kept, and the third argument does not fit it. -/
theorem second_number_decides :
    let sig : Signature := {
      name := "f", params := [.array (.var "T" none), .array (.var "T" none), .var "T" none]
      result := .unit, typeParams := [{ name := "T" }] }
    let args : List Ty := [.array .i32, .array .f32, .i32]
    (∃ inst, (solve sig args "f" none none).run [] = (.ok inst, [])) ∧
      ∀ inst after, (solve sig (args.set 0 .auto) "f" none none).run [] ≠ (.ok inst, after) := by
  intro sig args
  have works : Works sig args (Dict.ofList [("T", .i32)]) :=
    ⟨rfl, fun _ => rfl, by simp [sig, Signature.isGeneric], by simp [sig, TypeParam.MetUnder],
      by decide⟩
  refine ⟨exists_solve_iff.mpr ⟨_, works⟩, ?_⟩
  intro inst after accepted
  obtain ⟨-, bound, -, admits⟩ := works_of_solve accepted
  have decided : bindVars ∅ (meetingsAll sig.params (args.set 0 .auto)) =
      (.ok (), Dict.ofList [("T", .f32)]) := rfl
  rw [← (Prod.mk.inj (decided.symm.trans (bound rfl))).2] at admits
  have usable := admits.usable (.i32, .var "T" none) (by simp [args, sig])
  exact absurd usable (by decide)

end Instantiation

end ModuleTyping
