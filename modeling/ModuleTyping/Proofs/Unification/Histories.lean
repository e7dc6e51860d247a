import ModuleTyping.Proofs.Unification.Strict

/-!
# Histories of bindings

The arguments of a call are unified with its parameters one after another, under bindings
that pass from one to the next. Some of the unifications may fail, and leave what they bound
before the conflict. Whatever each rebinding preserves holds along the whole history
(`unifyEach_preserves`), so along every history bindings only get firmer and only variables
of the patterns are bound.
-/

namespace ModuleTyping.Ty

/-! ### Variables of a type -/

/-- The variable occurs in the type. -/
inductive Occurs (name : String) : Ty → Prop
  | var (constraint : Option String) : Occurs name (var name constraint)
  | element {element : Ty} : element.Occurs name → Occurs name (array element)
  | base {base : Ty} {args : List Ty} : base.Occurs name → Occurs name (generic base args)
  | arg {base arg : Ty} {args : List Ty} :
      arg ∈ args → arg.Occurs name → Occurs name (generic base args)
  | param {param result : Ty} {params : List Ty} :
      param ∈ params → param.Occurs name → Occurs name (function params result)
  | result {result : Ty} {params : List Ty} :
      result.Occurs name → Occurs name (function params result)
  | field {declared : String} {field : String × Ty} {fields : List (String × Ty)} :
      field ∈ fields → field.2.Occurs name → Occurs name (record declared fields)
  | variant {declared : String} {variant : String × List Ty} {ty : Ty}
      {variants : List (String × List Ty)} :
      variant ∈ variants → ty ∈ variant.2 → ty.Occurs name → Occurs name (sum declared variants)
  | referent {referent : Ty} : referent.Occurs name → Occurs name (ref referent)
  | mutReferent {referent : Ty} : referent.Occurs name → Occurs name (mutRef referent)
  | key {key value : Ty} : key.Occurs name → Occurs name (map key value)
  | value {key value : Ty} : value.Occurs name → Occurs name (map key value)

mutual

/-- Unification meets variables of the pattern only. -/
theorem occurs_of_mem_meetings : ∀ pattern actual : Ty,
    ∀ meeting ∈ pattern.meetings actual, pattern.Occurs meeting.1
  | var name constraint, actual, meeting, met => by
      rw [meetings, List.mem_singleton] at met
      subst met
      exact .var constraint
  | generic base args, actual, meeting, met => by
      cases actual with
      | generic actualBase actualArgs =>
          rcases List.mem_append.mp met with met | met
          · exact .base (occurs_of_mem_meetings base actualBase meeting met)
          · obtain ⟨arg, member, occurs⟩ :=
              occurs_of_mem_meetingsAll args actualArgs meeting met
            exact .arg member occurs
      | _ => cases met
  | array element, actual, meeting, met => by
      cases actual with
      | array actual => exact .element (occurs_of_mem_meetings element actual meeting met)
      | _ => cases met
  | ref referent, actual, meeting, met => by
      cases actual with
      | ref actual => exact .referent (occurs_of_mem_meetings referent actual meeting met)
      | _ => cases met
  | mutRef referent, actual, meeting, met => by
      cases actual with
      | mutRef actual => exact .mutReferent (occurs_of_mem_meetings referent actual meeting met)
      | _ => cases met
  | function params result, actual, meeting, met => by
      cases actual with
      | function actualParams actualResult =>
          rcases List.mem_append.mp met with met | met
          · obtain ⟨param, member, occurs⟩ :=
              occurs_of_mem_meetingsAll params actualParams meeting met
            exact .param member occurs
          · exact .result (occurs_of_mem_meetings result actualResult meeting met)
      | _ => cases met
  | map key value, actual, meeting, met => by
      cases actual with
      | map actualKey actualValue =>
          rcases List.mem_append.mp met with met | met
          · exact .key (occurs_of_mem_meetings key actualKey meeting met)
          · exact .value (occurs_of_mem_meetings value actualValue meeting met)
      | _ => cases met
  | primitive _, _, _, met | record _ _, _, _, met | sum _ _, _, _, met | abstract _, _, _, met
  | unit, _, _, met => by cases met

theorem occurs_of_mem_meetingsAll : ∀ patterns actuals : List Ty,
    ∀ meeting ∈ meetingsAll patterns actuals, ∃ pattern ∈ patterns, pattern.Occurs meeting.1
  | pattern :: patterns, actual :: actuals, meeting, met => by
      rcases List.mem_append.mp met with met | met
      · exact ⟨pattern, .head _, occurs_of_mem_meetings pattern actual meeting met⟩
      · obtain ⟨later, member, occurs⟩ :=
          occurs_of_mem_meetingsAll patterns actuals meeting met
        exact ⟨later, .tail _ member, occurs⟩
  | [], _, _, met => by cases met
  | _ :: _, [], _, met => by cases met

end

/-! ### What a history preserves -/

/-- The bindings that unifying patterns with types leaves, pair by pair, whether a pair can be
unified or not. -/
def unifyEach (bindings : Bindings) (pairs : List (Ty × Ty)) : Bindings :=
  pairs.foldl (fun bindings pair => (pair.1.unify bindings pair.2).2) bindings

theorem unifyEach_append (bindings : Bindings) (past future : List (Ty × Ty)) :
    unifyEach bindings (past ++ future) = unifyEach (unifyEach bindings past) future :=
  List.foldl_append

/-- What each rebinding preserves holds along the whole history. -/
theorem unifyEach_preserves {P : Bindings → Prop} {bindings : Bindings} {pairs : List (Ty × Ty)}
    (start : P bindings)
    (step : ∀ bindings name actual, (∃ pair ∈ pairs, pair.1.Occurs name) → P bindings →
      P (bindings.insert name (rebound (bindings.get? name) actual))) :
    P (unifyEach bindings pairs) := by
  -- One induction over the pairs of the history, and for each pair one over its meetings.
  refine List.foldlRecOn pairs _ start fun bindings held pair member => ?_
  rw [unify_eq]
  refine bindVars_preserves held fun bindings name actual met => ?_
  exact step bindings name actual ⟨pair, member, occurs_of_mem_meetings pair.1 pair.2 _ met⟩

theorem allYield_unifyEach (bindings : Bindings) (pairs : List (Ty × Ty)) :
    AllYield bindings (unifyEach bindings pairs) :=
  unifyEach_preserves (.refl bindings) fun next name actual _ yields =>
    yields.trans (allYield_insert_rebound next name actual)

/-- A history binds no variables but those of its patterns. -/
theorem addsOnly_unifyEach (bindings : Bindings) (pairs : List (Ty × Ty)) :
    Dict.AddsOnly (fun name => ∃ pair ∈ pairs, pair.1.Occurs name) bindings
      (unifyEach bindings pairs) :=
  unifyEach_preserves (.refl _ bindings) fun _ _ _ occurs adds => adds.insert occurs _

/-- Between any two points of a history of unifications, failed ones included, no variable loses
its binding, a binding that is no variable stays one of that name and no less concrete, and
only variables of the patterns unified in between are bound anew. -/
theorem bindings_get_firmer (bindings : Bindings) (past future : List (Ty × Ty)) :
    let before := unifyEach bindings past
    let after := unifyEach bindings (past ++ future)
    (∀ name, before.contains name = true → after.contains name = true) ∧
      (∀ name ty, before.get? name = some ty → ty.isVar = false →
        ∃ bound, after.get? name = some bound ∧ bound.isVar = false ∧ bound.name = ty.name ∧
          ty.concreteness ≤ bound.concreteness) ∧
      ∀ name, after.contains name = true →
        before.contains name = true ∨ ∃ pair ∈ future, pair.1.Occurs name := by
  intro before after
  have later : after = unifyEach before future := unifyEach_append bindings past future
  have yield : AllYield before after := later ▸ allYield_unifyEach before future
  refine ⟨fun name => yield.contains, fun name ty held concrete => ?_,
    later ▸ addsOnly_unifyEach before future⟩
  obtain ⟨bound, held, yields⟩ := yield name ty held
  obtain ⟨concrete, named, firm⟩ := yields.resolve_left (by simp [concrete])
  exact ⟨bound, held, concrete, named.symm, firm⟩

/-- `T` gets firmer in a unification that fails later on, and `U`, which is bound on the way, keeps
its type when it meets another number. -/
theorem bindings_get_firmer_past_conflict :
    let box (arg : Ty) : Ty := .generic (.abstract "Box") [arg]
    let pattern : Ty := .function [.var "T" none, .var "U" none] (.var "T" none)
    let actual : Ty := .function [box .i32, .f64] .string
    let past : List (Ty × Ty) := [(.var "T" none, box (.var "X" none))]
    let future : List (Ty × Ty) := [(pattern, actual), (.ref (.var "U" none), .ref .i32)]
    let before : Bindings := Dict.ofList [("T", box (.var "X" none))]
    let after : Bindings := Dict.ofList [("T", box .i32), ("U", .f64)]
    unifyEach ∅ past = before ∧ unifyEach ∅ (past ++ future) = after ∧
      pattern.unify before actual = (.error ⟨"T", box .i32, .string⟩, after) ∧
      ∃ bound, after.get? "T" = some bound ∧ bound.isVar = false ∧ bound.name = "Box" ∧
        (box (.var "X" none)).concreteness ≤ bound.concreteness := by
  intro box pattern actual past future before after
  exact ⟨rfl, rfl, rfl, (bindings_get_firmer ∅ past future).2.1 "T" (box (.var "X" none)) rfl rfl⟩

end ModuleTyping.Ty
