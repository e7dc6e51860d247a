import ModuleTyping.Proofs.Dict
import ModuleTyping.Proofs.Ty.Substitution
import ModuleTyping.Unification.Soft

/-!
# What trial unification leaves

Fitting a type to a pattern goes over the two in step and stops where they do not go
together. It is a list of trials, known before any of them is made: a variable meets a type,
or the shapes are found to differ (`fit_eq`). So its laws are laws of making trials in order.

A trial that went well holds under the bindings it leaves and under all that extend them
(`Trial.Holds`), since a binding is never touched again. Trials that hold already are made
again without any effect, and under bindings for which all trials of a pattern hold, the
pattern stands for a type equivalent to the one that was fitted to it (`equivalent_subst`).
-/

namespace ModuleTyping.Ty

/-! ### Comparing types -/

/-- The shapes that comparing and fitting take apart. -/
inductive Head where
  | var
  | generic
  | array
  | other

/-- How the type is taken apart. -/
def head : Ty → Head
  | var _ _ => .var
  | generic _ _ => .generic
  | array _ => .array
  | _ => .other

/-- Types that are not taken apart together are compared by name. -/
theorem equivalent_of_head {a b : Ty} (apart : a.head = .other ∨ a.head ≠ b.head) :
    a.equivalent b = (a.normalName == b.normalName) := by
  cases a with
  | var name constraint => cases b <;> first | rfl | simp [head] at apart
  | generic base args => cases b <;> first | rfl | simp [head] at apart
  | array element => cases b <;> first | rfl | simp [head] at apart
  | _ => rfl

mutual

theorem equivalent_refl : ∀ ty : Ty, ty.equivalent ty = true
  | var name constraint => by simp [equivalent]
  | generic base args => by simp [equivalent, equivalentAll_refl args]
  | array element => equivalent_refl element
  | record _ _ | sum _ _ | primitive _ | abstract _ | unit | function _ _ | ref _ | mutRef _
  | map _ _ => by simp [equivalent]

theorem equivalentAll_refl : ∀ tys : List Ty, equivalentAll tys tys = true
  | [] => rfl
  | ty :: tys => by simp [equivalentAll, equivalent_refl ty, equivalentAll_refl tys]

end

/-- Equivalence of a variable with a type does not depend on the variable's constraint. -/
theorem var_equivalent (name : String) (constraint constraint' : Option String) (ty : Ty) :
    (var name constraint).equivalent ty = (var name constraint').equivalent ty := by
  cases ty <;> rfl

/-! ### Fitting as a sequence of trials -/

/-- What fitting comes upon at one place of a pattern. -/
inductive Trial where
  /-- The shapes do not go together. -/
  | mismatch
  /-- A variable meets a type. -/
  | meeting (name : String) (actual : Ty)

mutual

/-- The trials of fitting a type to a pattern, in the order in which they are made. -/
def trials : Ty → Ty → List Trial
  | var name _, actual => [.meeting name actual]
  | generic base args, generic actualBase actualArgs =>
    if base.name = actualBase.name ∧ args.length = actualArgs.length then
      trialsAll args actualArgs
    else [.mismatch]
  | generic _ _, _ => [.mismatch]
  | array element, array actual => element.trials actual
  | array _, _ => [.mismatch]
  | pattern, actual => if pattern.equivalent actual then [] else [.mismatch]

/-- The trials in each place that both lists have. -/
def trialsAll : List Ty → List Ty → List Trial
  | pattern :: patterns, actual :: actuals =>
    pattern.trials actual ++ trialsAll patterns actuals
  | _, _ => []

end

/-- Makes trials in order, up to the first that fails. -/
def attempt (bindings : Bindings) : List Trial → Bool × Bindings
  | [] => (true, bindings)
  | .mismatch :: _ => (false, bindings)
  | .meeting name actual :: rest =>
    match bindings.get? name with
    | some bound => if bound.equivalent actual then attempt bindings rest else (false, bindings)
    | none => attempt (bindings.insert name actual) rest

theorem attempt_append (bindings : Bindings) (first rest : List Trial) :
    attempt bindings (first ++ rest) =
      match attempt bindings first with
      | (true, bindings) => attempt bindings rest
      | (false, bindings) => (false, bindings) := by
  induction first generalizing bindings with
  | nil => rfl
  | cons trial first ih =>
      cases trial with
      | mismatch => rfl
      | meeting name actual =>
          simp only [List.cons_append, attempt]
          cases bindings.get? name with
          | none => exact ih _
          | some bound =>
              by_cases fits : bound.equivalent actual = true
              · simp only [fits, if_true]
                exact ih _
              · simp [fits]

theorem trials_of_head {pattern actual : Ty} (other : pattern.head = .other) :
    pattern.trials actual = if pattern.equivalent actual then [] else [.mismatch] := by
  cases pattern <;> first | rfl | simp [head] at other

theorem attempt_of_head (bindings : Bindings) {pattern actual : Ty}
    (other : pattern.head = .other) :
    attempt bindings (pattern.trials actual) = (pattern.equivalent actual, bindings) := by
  rw [trials_of_head other]
  cases pattern.equivalent actual <;> rfl

theorem fit_of_head (bindings : Bindings) {pattern actual : Ty}
    (other : pattern.head = .other) :
    pattern.fit bindings actual = (pattern.equivalent actual, bindings) := by
  cases pattern <;> first | rfl | simp [head] at other

theorem fit_of_head_ne (bindings : Bindings) {pattern actual : Ty}
    (taken : pattern.head = .generic ∨ pattern.head = .array)
    (apart : pattern.head ≠ actual.head) : pattern.fit bindings actual = (false, bindings) := by
  cases pattern with
  | generic base args => cases actual <;> first | rfl | simp [head] at apart
  | array element => cases actual <;> first | rfl | simp [head] at apart
  | _ => simp [head] at taken

mutual

theorem fit_eq : ∀ (bindings : Bindings) (pattern actual : Ty),
    pattern.fit bindings actual = attempt bindings (pattern.trials actual)
  | bindings, var name _, actual => by
      rw [fit, trials, attempt]
      cases bindings.get? name with
      | none => rfl
      | some bound => cases fits : bound.equivalent actual <;> simp [fits, attempt]
  | bindings, generic base args, actual => by
      cases actual with
      | generic actualBase actualArgs =>
          rw [fit, trials]
          split
          · exact fitAll_eq bindings args actualArgs
          · rfl
      | _ => rfl
  | bindings, array element, actual => by
      cases actual with
      | array actual => exact fit_eq bindings element actual
      | _ => rfl
  | bindings, record _ _, _ | bindings, sum _ _, _ | bindings, primitive _, _
  | bindings, abstract _, _ | bindings, unit, _ | bindings, function _ _, _ | bindings, ref _, _
  | bindings, mutRef _, _ | bindings, map _ _, _ => by
      rw [fit_of_head bindings rfl, attempt_of_head bindings rfl]

theorem fitAll_eq : ∀ (bindings : Bindings) (patterns actuals : List Ty),
    fitAll bindings patterns actuals = attempt bindings (trialsAll patterns actuals)
  | bindings, pattern :: patterns, actual :: actuals => by
      rw [fitAll, trialsAll, attempt_append, fit_eq bindings pattern actual]
      rcases attempt bindings (pattern.trials actual) with ⟨_ | _, bindings⟩
      · rfl
      · exact fitAll_eq bindings patterns actuals
  | _, [], _ => rfl
  | _, _ :: _, [] => rfl

end

/-! ### Making trials -/

/-- What a new binding preserves is preserved by any number of trials, failed ones included. -/
theorem attempt_preserves {P : Bindings → Prop} {bindings : Bindings} {trials : List Trial}
    (start : P bindings)
    (step : ∀ bindings name actual, .meeting name actual ∈ trials →
      bindings.get? name = none → P bindings → P (bindings.insert name actual)) :
    P (attempt bindings trials).2 := by
  induction trials generalizing bindings with
  | nil => exact start
  | cons trial trials ih =>
      have later : ∀ bindings, P bindings → P (attempt bindings trials).2 := fun bindings start =>
        ih start fun bindings name actual member => step bindings name actual (.tail _ member)
      cases trial with
      | mismatch => exact start
      | meeting name actual =>
          rw [attempt]
          cases unbound : bindings.get? name with
          | none => exact later _ (step bindings name actual (.head _) unbound start)
          | some bound =>
              dsimp only
              split
              · exact later bindings start
              · exact start

/-- Trials leave every binding there is as it is. -/
theorem extends_attempt (bindings : Bindings) (trials : List Trial) :
    (attempt bindings trials).2.Extends bindings :=
  attempt_preserves (.refl bindings) fun _ _ _ _ unbound kept =>
    (Dict.extends_insert unbound _).trans kept

/-- Trials bind no variables but those they meet. -/
theorem addsOnly_attempt (bindings : Bindings) (trials : List Trial) :
    Dict.AddsOnly (fun name => ∃ actual, .meeting name actual ∈ trials) bindings
      (attempt bindings trials).2 :=
  attempt_preserves (.refl _ bindings) fun _ _ actual met _ adds => adds.insert ⟨actual, met⟩ actual

/-- The trial has nothing left to bind, and what is bound bears it out. -/
def Trial.Holds (bindings : Bindings) : Trial → Prop
  | mismatch => False
  | meeting name actual =>
    ∃ bound, bindings.get? name = some bound ∧ bound.equivalent actual = true

theorem Trial.Holds.mono {larger bindings : Bindings} {trial : Trial}
    (holds : trial.Holds bindings) (kept : larger.Extends bindings) : trial.Holds larger := by
  cases trial with
  | mismatch => exact holds
  | meeting name actual =>
      obtain ⟨bound, held, fits⟩ := holds
      exact ⟨bound, kept name bound held, fits⟩

/-- Trials that all went well hold under the bindings they leave. -/
theorem holds_of_attempt {bindings after : Bindings} {trials : List Trial}
    (ran : attempt bindings trials = (true, after)) : ∀ trial ∈ trials, trial.Holds after := by
  induction trials generalizing bindings with
  | nil => nofun
  | cons trial trials ih =>
      cases trial with
      | mismatch => cases ran
      | meeting name actual =>
          -- What the variable is bound to after its own trial it is bound to in the end.
          have settled {next : Bindings} {bound : Ty} (ran : attempt next trials = (true, after))
              (held : next.get? name = some bound) (fits : bound.equivalent actual = true) :
              ∀ trial ∈ Trial.meeting name actual :: trials, trial.Holds after := by
            have kept : after.Extends next := by
              simpa only [ran] using extends_attempt next trials
            have holds : (Trial.meeting name actual).Holds next := ⟨bound, held, fits⟩
            exact List.forall_mem_cons.mpr ⟨holds.mono kept, ih ran⟩
          rw [attempt] at ran
          cases held : bindings.get? name with
          | none =>
              rw [held] at ran
              exact settled ran (Dict.get?_insert_self bindings name actual)
                (equivalent_refl actual)
          | some bound =>
              simp only [held] at ran
              split at ran
              · next fits => exact settled ran held fits
              · cases ran

/-- Trials that all went well have bound the variables they met, and no others. -/
theorem contains_attempt_iff {bindings after : Bindings} {trials : List Trial} {name : String}
    (ran : attempt bindings trials = (true, after)) :
    after.contains name = true ↔
      bindings.contains name = true ∨ ∃ actual, .meeting name actual ∈ trials := by
  have adds := addsOnly_attempt bindings trials
  have kept := extends_attempt bindings trials
  rw [ran] at adds kept
  refine ⟨adds name, ?_⟩
  rintro (bound | ⟨actual, met⟩)
  · obtain ⟨ty, held⟩ := Dict.contains_iff.mp bound
    exact Dict.contains_iff.mpr ⟨ty, kept name ty held⟩
  · obtain ⟨bound, held, -⟩ := holds_of_attempt ran _ met
    exact Dict.contains_iff.mpr ⟨bound, held⟩

/-- Trials that hold already go well and bind nothing. -/
theorem attempt_of_holds {bindings : Bindings} {trials : List Trial}
    (holds : ∀ trial ∈ trials, trial.Holds bindings) :
    attempt bindings trials = (true, bindings) := by
  induction trials with
  | nil => rfl
  | cons trial trials ih =>
      obtain ⟨first, rest⟩ := List.forall_mem_cons.mp holds
      cases trial with
      | mismatch => exact first.elim
      | meeting name actual =>
          obtain ⟨bound, held, fits⟩ := first
          rw [attempt, held]
          simpa only [fits, if_true] using ih rest

/-- Fitting leaves every binding there is as it is, whether it succeeds or fails. After a
success, it succeeds again and binds nothing under the bindings it left and under all that
extend them. -/
theorem fit_stable (pattern actual : Ty) (bindings : Bindings) :
    (pattern.fit bindings actual).2.Extends bindings ∧
      ∀ after, pattern.fit bindings actual = (true, after) →
        ∀ larger : Bindings, larger.Extends after →
          pattern.fit larger actual = (true, larger) := by
  simp only [fit_eq]
  refine ⟨extends_attempt bindings _, fun after fitted larger kept => ?_⟩
  exact attempt_of_holds fun trial made => (holds_of_attempt fitted trial made).mono kept

/-- The second time, `T` and `U` are bound before the pattern is gone over, and so is `V`, which
does not occur in it. -/
theorem fit_stable_bound_beyond :
    let box (arg : Ty) : Ty := .generic (.abstract "Box") [arg]
    let pattern : Ty :=
      .generic (.abstract "Row") [.array (.var "T" none), box (.var "U" none), .var "T" none]
    let actual : Ty :=
      .generic (.abstract "Row") [.array (box (.primitive "str")), box .i32, box .string]
    let after : Bindings := Dict.ofList [("T", box (.primitive "str")), ("U", .i32)]
    let larger : Bindings := after.insert "V" .bool
    pattern.fit ∅ actual = (true, after) ∧ larger.Extends after ∧
      pattern.fit larger actual = (true, larger) := by
  intro box pattern actual after larger
  have fitted : pattern.fit ∅ actual = (true, after) := by rfl
  have kept : larger.Extends after := Dict.extends_insert rfl _
  exact ⟨fitted, kept, (fit_stable pattern actual ∅).2 after fitted larger kept⟩

/-! ### The type that a fitted pattern stands for -/

theorem head_subst (bindings : Bindings) {ty : Ty} (notVar : ty.isVar = false) :
    (ty.subst bindings).head = ty.head := by
  cases ty with
  | var => cases notVar
  | array => rw [subst_array]; rfl
  | generic => rw [subst_generic]; rfl
  | function => rw [subst_function]; rfl
  | record => rw [subst_record]; rfl
  | sum => rw [subst_sum]; rfl
  | _ => rfl

/-- A type that is compared by name is so after substitution too, under the same name. -/
theorem equivalent_subst_of_head (bindings : Bindings) {pattern : Ty} (actual : Ty)
    (other : pattern.head = .other) :
    (pattern.subst bindings).equivalent actual = pattern.equivalent actual := by
  have notVar : pattern.isVar = false := by
    cases pattern <;> first | rfl | simp [head] at other
  have stays : (pattern.subst bindings).head = .other := (head_subst bindings notVar).trans other
  have named : (pattern.subst bindings).normalName = pattern.normalName :=
    congrArg ModuleTyping.normalName (name_subst bindings notVar)
  rw [equivalent_of_head (.inl stays), equivalent_of_head (.inl other), named]

theorem equivalent_of_holds {bindings : Bindings} {pattern actual : Ty}
    (other : pattern.head = .other)
    (holds : ∀ trial ∈ pattern.trials actual, trial.Holds bindings) :
    pattern.equivalent actual = true := by
  have ran := attempt_of_holds holds
  rw [attempt_of_head bindings other] at ran
  exact congrArg Prod.fst ran

mutual

/-- A pattern whose trials hold stands for a type equivalent to the one fitted to it. -/
theorem equivalent_subst (bindings : Bindings) : ∀ pattern actual : Ty,
    (∀ trial ∈ pattern.trials actual, trial.Holds bindings) →
      (pattern.subst bindings).equivalent actual = true
  | var name constraint, actual, holds => by
      obtain ⟨bound, held, fits⟩ := holds _ (List.mem_singleton_self _)
      rw [subst_var, held]
      dsimp only
      split
      · next itself =>
          -- The variable is bound to itself and stays, with a constraint of its own.
          cases bound with
          | var other constraint' =>
              have named : other = name := eq_of_beq itself
              rwa [named, var_equivalent name constraint' constraint] at fits
          | _ => cases itself
      · exact fits
  | generic base args, actual, holds => by
      cases actual with
      | generic actualBase actualArgs =>
          rw [trials] at holds
          split at holds
          · next alike =>
              rw [subst_generic, equivalent, alike.1, beq_self_eq_true, Bool.true_and]
              exact equivalentAll_subst bindings args actualArgs alike.2 holds
          · exact (holds _ (List.mem_singleton_self _)).elim
      | _ => exact (holds _ (List.mem_singleton_self _)).elim
  | array element, actual, holds => by
      cases actual with
      | array actual =>
          rw [subst_array, equivalent]
          exact equivalent_subst bindings element actual holds
      | _ => exact (holds _ (List.mem_singleton_self _)).elim
  | record _ _, actual, holds | sum _ _, actual, holds | primitive _, actual, holds
  | abstract _, actual, holds | unit, actual, holds | function _ _, actual, holds
  | ref _, actual, holds | mutRef _, actual, holds | map _ _, actual, holds => by
      rw [equivalent_subst_of_head bindings actual rfl]
      exact equivalent_of_holds rfl holds

theorem equivalentAll_subst (bindings : Bindings) : ∀ patterns actuals : List Ty,
    patterns.length = actuals.length →
      (∀ trial ∈ trialsAll patterns actuals, trial.Holds bindings) →
        equivalentAll (patterns.map (·.subst bindings)) actuals = true
  | [], [], _, _ => rfl
  | pattern :: patterns, actual :: actuals, lengths, holds => by
      rw [trialsAll, List.forall_mem_append] at holds
      rw [List.map_cons, equivalentAll, equivalent_subst bindings pattern actual holds.1,
        Bool.true_and]
      exact equivalentAll_subst bindings patterns actuals (Nat.succ.inj lengths) holds.2

end

/-- A pattern that a type was fitted to stands for an equivalent type, under the bindings that
fitting left. -/
theorem fit_sound {pattern actual : Ty} {bindings after : Bindings}
    (fitted : pattern.fit bindings actual = (true, after)) :
    (pattern.subst after).equivalent actual = true := by
  rw [fit_eq] at fitted
  exact equivalent_subst after pattern actual (holds_of_attempt fitted)

/-- `U` is bound to itself and stays; `T`, which is bound by a later argument, is replaced in the
parameter of a function type that fitting does not look into. -/
theorem fit_sound_beyond_reach :
    let row (args : List Ty) : Ty := .generic (.abstract "Row") args
    let pattern : Ty :=
      row [.var "U" none, .function [.var "T" none] .bool, .array (.var "T" none)]
    let actual : Ty := row [.var "U" none, .function [] .unit, .array .string]
    let after : Bindings := Dict.ofList [("T", .string), ("U", .var "U" none)]
    pattern.fit ∅ actual = (true, after) ∧
      (pattern.subst after).equivalent actual = true := by
  intro row pattern actual after
  have fitted : pattern.fit ∅ actual = (true, after) := by rfl
  exact ⟨fitted, fit_sound fitted⟩

end ModuleTyping.Ty
