import ModuleTyping.Proofs.Dict
import ModuleTyping.Proofs.SymbolTable.Consistency
import ModuleTyping.Unification.Strict

/-!
# What unifying arguments leaves

Unification of a parameter's type with an argument's goes over the two in step, and all it
does is to bind the variables it meets, one after another (`unify_eq`). So its laws are
laws of binding a list of variables.

A binding that is kept or replaced yields to the one that stands in the end: a variable
yields to anything, and any other type to types of its name that are no less concrete
(`YieldsTo`). The binding that stands after a whole pass therefore stands after another
one. On the way it may be overtaken by another argument's type that is just as concrete,
and the bindings of the second pass are not those of the first either; but each of them is
the one of the first pass at that point or the final one (`bindVars_between`).
-/

namespace ModuleTyping.Ty

/-! ### Unification as a sequence of bindings -/

mutual

/-- The variables of a pattern with the types they stand against, in the order in which
unification meets them. -/
def meetings : Ty → Ty → List (String × Ty)
  | var name _, actual => [(name, actual)]
  | generic base args, generic actualBase actualArgs =>
    base.meetings actualBase ++ meetingsAll args actualArgs
  | array element, array actual => element.meetings actual
  | ref referent, ref actual => referent.meetings actual
  | mutRef referent, mutRef actual => referent.meetings actual
  | function params result, function actualParams actualResult =>
    meetingsAll params actualParams ++ result.meetings actualResult
  | map key value, map actualKey actualValue =>
    key.meetings actualKey ++ value.meetings actualValue
  | _, _ => []

/-- The variables met in each place that both lists have. -/
def meetingsAll : List Ty → List Ty → List (String × Ty)
  | pattern :: patterns, actual :: actuals =>
    pattern.meetings actual ++ meetingsAll patterns actuals
  | _, _ => []

end

theorem meetingsAll_eq (patterns actuals : List Ty) :
    meetingsAll patterns actuals =
      (patterns.zip actuals).flatMap fun pair => pair.1.meetings pair.2 := by
  induction patterns generalizing actuals with
  | nil => rfl
  | cons pattern patterns ih =>
      cases actuals with
      | nil => rfl
      | cons actual actuals => rw [meetingsAll, ih, List.zip_cons_cons, List.flatMap_cons]

/-- Binds variables one after another, up to the first conflict. -/
def bindVars (bindings : Bindings) : List (String × Ty) → Except Conflict Unit × Bindings
  | [] => (.ok (), bindings)
  | (name, actual) :: rest =>
    match bindVar bindings name actual with
    | (.ok (), bindings) => bindVars bindings rest
    | failed => failed

theorem bindVars_append (bindings : Bindings) (first rest : List (String × Ty)) :
    bindVars bindings (first ++ rest) =
      match bindVars bindings first with
      | (.ok (), bindings) => bindVars bindings rest
      | failed => failed := by
  induction first generalizing bindings with
  | nil => rfl
  | cons meeting first ih =>
      simp only [List.cons_append, bindVars]
      rcases bindVar bindings meeting.1 meeting.2 with ⟨conflict | _, bindings⟩
      · rfl
      · exact ih bindings

theorem bindVars_singleton (bindings : Bindings) (name : String) (actual : Ty) :
    bindVars bindings [(name, actual)] = bindVar bindings name actual := by
  simp only [bindVars]
  rcases bindVar bindings name actual with ⟨conflict | _, bindings⟩ <;> rfl

mutual

theorem unify_eq : ∀ (bindings : Bindings) (pattern actual : Ty),
    pattern.unify bindings actual = bindVars bindings (pattern.meetings actual)
  | bindings, var name _, actual => by
      rw [unify, meetings, bindVars_singleton]
  | bindings, generic base args, actual => by
      cases actual with
      | generic actualBase actualArgs =>
          rw [unify, meetings, bindVars_append, unify_eq bindings base actualBase]
          rcases bindVars bindings (base.meetings actualBase) with ⟨conflict | _, bindings⟩
          · rfl
          · exact unifyAll_eq bindings args actualArgs
      | _ => rfl
  | bindings, array element, actual => by
      cases actual with
      | array actual => exact unify_eq bindings element actual
      | _ => rfl
  | bindings, ref referent, actual => by
      cases actual with
      | ref actual => exact unify_eq bindings referent actual
      | _ => rfl
  | bindings, mutRef referent, actual => by
      cases actual with
      | mutRef actual => exact unify_eq bindings referent actual
      | _ => rfl
  | bindings, function params result, actual => by
      cases actual with
      | function actualParams actualResult =>
          rw [unify, meetings, bindVars_append, unifyAll_eq bindings params actualParams]
          rcases bindVars bindings (meetingsAll params actualParams) with ⟨conflict | _, bindings⟩
          · rfl
          · exact unify_eq bindings result actualResult
      | _ => rfl
  | bindings, map key value, actual => by
      cases actual with
      | map actualKey actualValue =>
          rw [unify, meetings, bindVars_append, unify_eq bindings key actualKey]
          rcases bindVars bindings (key.meetings actualKey) with ⟨conflict | _, bindings⟩
          · rfl
          · exact unify_eq bindings value actualValue
      | _ => rfl
  | _, primitive _, _ => rfl
  | _, record _ _, _ => rfl
  | _, sum _ _, _ => rfl
  | _, abstract _, _ => rfl
  | _, unit, _ => rfl

theorem unifyAll_eq : ∀ (bindings : Bindings) (patterns actuals : List Ty),
    unifyAll bindings patterns actuals = bindVars bindings (meetingsAll patterns actuals)
  | bindings, pattern :: patterns, actual :: actuals => by
      rw [unifyAll, meetingsAll, bindVars_append, unify_eq bindings pattern actual]
      rcases bindVars bindings (pattern.meetings actual) with ⟨conflict | _, bindings⟩
      · rfl
      · exact unifyAll_eq bindings patterns actuals
  | _, [], _ => rfl
  | _, _ :: _, [] => rfl

end

/-! ### One binding -/

/-- Two types that are bound to one variable and cannot be reconciled. -/
def clashes (existing actual : Ty) : Bool :=
  !existing.isVar && !actual.isVar && existing.name != actual.name && !existing.shareable actual

/-- What stands of a binding and a type that is bound in its place. -/
def firmer (existing actual : Ty) : Ty :=
  if existing.isVar then actual
  else if actual.isVar then existing
  else if existing.name = actual.name ∧ existing.concreteness ≤ actual.concreteness then actual
  else existing

/-- The type may be bound in place of the binding there is, if there is one. -/
def fitsBinding (existing : Option Ty) (actual : Ty) : Bool :=
  existing.all fun existing => !existing.clashes actual

/-- The binding of a variable after it meets a type. -/
def rebound (existing : Option Ty) (actual : Ty) : Ty :=
  match existing with
  | none => actual
  | some existing => existing.firmer actual

/-- Binding a variable succeeds unless its binding clashes with the type. -/
theorem bindVar_eq_ok_iff {bindings after : Bindings} {name : String} {actual : Ty} :
    bindVar bindings name actual = (.ok (), after) ↔
      fitsBinding (bindings.get? name) actual = true ∧
        after = bindings.insert name (rebound (bindings.get? name) actual) := by
  unfold bindVar
  cases held : bindings.get? name with
  | none => simp [fitsBinding, rebound, eq_comm]
  | some existing =>
      -- A binding that is kept is stored again, which changes nothing.
      have kept : bindings.insert name existing = bindings := Dict.insert_of_get? held
      simp only [fitsBinding, rebound, clashes, firmer, Option.all_some]
      grind

/-- A conflict leaves the bindings as they are. -/
theorem bindVar_error {bindings after : Bindings} {name : String} {actual : Ty}
    {conflict : Conflict} (failed : bindVar bindings name actual = (.error conflict, after)) :
    after = bindings := by
  unfold bindVar at failed
  grind

theorem bindVars_cons_eq_ok_iff {bindings after : Bindings} {name : String} {actual : Ty}
    {rest : List (String × Ty)} :
    bindVars bindings ((name, actual) :: rest) = (.ok (), after) ↔
      fitsBinding (bindings.get? name) actual = true ∧
        bindVars (bindings.insert name (rebound (bindings.get? name) actual)) rest =
          (.ok (), after) := by
  rw [bindVars]
  rcases ran : bindVar bindings name actual with ⟨conflict | _, next⟩
  · have refused : ¬ fitsBinding (bindings.get? name) actual = true := by
      intro fits
      cases ran.symm.trans (bindVar_eq_ok_iff.mpr ⟨fits, rfl⟩)
    simp [refused]
  · obtain ⟨fits, rfl⟩ := bindVar_eq_ok_iff.mp ran
    simp [fits]

/-! ### Bindings get firmer -/

/-- A variable gives way to any type, and any other type to those of its name that are no
less concrete. -/
def YieldsTo (a b : Ty) : Prop :=
  a.isVar = true ∨ (b.isVar = false ∧ a.name = b.name ∧ a.concreteness ≤ b.concreteness)

theorem YieldsTo.refl (a : Ty) : a.YieldsTo a := by
  cases var : a.isVar with
  | true => exact .inl var
  | false => exact .inr ⟨var, rfl, Nat.le_refl _⟩

theorem YieldsTo.trans {a b c : Ty} (first : a.YieldsTo b) (second : b.YieldsTo c) :
    a.YieldsTo c := by
  unfold YieldsTo at *
  grind

theorem yieldsTo_firmer (existing actual : Ty) : existing.YieldsTo (existing.firmer actual) := by
  unfold YieldsTo firmer
  grind

/-- Every binding of the first yields to one of the second. -/
def AllYield (bindings after : Bindings) : Prop :=
  ∀ name ty, bindings.get? name = some ty → ∃ bound, after.get? name = some bound ∧ ty.YieldsTo bound

theorem AllYield.trans {bindings next after : Bindings} (first : AllYield bindings next)
    (second : AllYield next after) : AllYield bindings after := by
  intro name ty held
  obtain ⟨bound, held, yields⟩ := first name ty held
  obtain ⟨last, held, yields'⟩ := second name bound held
  exact ⟨last, held, yields.trans yields'⟩

/-- One step: a binding yields to what it is rebound to. -/
theorem allYield_insert_rebound (bindings : Bindings) (name : String) (actual : Ty) :
    AllYield bindings (bindings.insert name (rebound (bindings.get? name) actual)) := by
  intro other ty held
  rw [Dict.get?_insert]
  split
  · next same =>
      subst same
      rw [held]
      exact ⟨_, rfl, yieldsTo_firmer ty actual⟩
  · exact ⟨ty, held, .refl ty⟩

theorem AllYield.contains {bindings after : Bindings} (yield : AllYield bindings after)
    {name : String} (held : bindings.contains name = true) : after.contains name = true := by
  obtain ⟨ty, held⟩ := Dict.contains_iff.mp held
  obtain ⟨bound, held, -⟩ := yield name ty held
  exact Dict.contains_iff.mpr ⟨bound, held⟩

theorem AllYield.refl (bindings : Bindings) : AllYield bindings bindings :=
  fun _ ty held => ⟨ty, held, .refl ty⟩

/-- What each rebinding preserves, a whole pass preserves, also one that ends in a conflict. -/
theorem bindVars_preserves {P : Bindings → Prop} {bindings : Bindings}
    {meetings : List (String × Ty)} (start : P bindings)
    (step : ∀ bindings name actual, (name, actual) ∈ meetings → P bindings →
      P (bindings.insert name (rebound (bindings.get? name) actual))) :
    P (bindVars bindings meetings).2 := by
  induction meetings generalizing bindings with
  | nil => exact start
  | cons meeting meetings ih =>
      obtain ⟨name, actual⟩ := meeting
      rw [bindVars]
      rcases ran : bindVar bindings name actual with ⟨conflict | _, next⟩
      · rw [← bindVar_error ran] at start
        exact start
      · obtain ⟨-, rfl⟩ := bindVar_eq_ok_iff.mp ran
        exact ih (step bindings name actual (.head _) start)
          fun bindings name actual member => step bindings name actual (.tail _ member)

/-- All steps: what was bound before yields to what is bound in the end. -/
theorem allYield_bindVars (bindings : Bindings) (meetings : List (String × Ty)) :
    AllYield bindings (bindVars bindings meetings).2 :=
  bindVars_preserves (.refl bindings) fun next name actual _ yields =>
    yields.trans (allYield_insert_rebound next name actual)

theorem allYield_of_bindVars {bindings after : Bindings} {meetings : List (String × Ty)}
    (ran : bindVars bindings meetings = (.ok (), after)) : AllYield bindings after := by
  simpa only [ran] using allYield_bindVars bindings meetings

/-- A pass binds no variables but those it meets. -/
theorem addsOnly_bindVars (bindings : Bindings) (meetings : List (String × Ty)) :
    Dict.AddsOnly (fun name => ∃ actual, (name, actual) ∈ meetings) bindings
      (bindVars bindings meetings).2 :=
  bindVars_preserves (.refl _ bindings) fun _ _ actual met adds => adds.insert ⟨actual, met⟩ _

/-! ### A second pass -/

/-- Types that are no variables are told apart by name alone when it comes to sharing. -/
theorem clashes_congr {existing bound actual : Ty} (concrete : existing.isVar = false)
    (concrete' : bound.isVar = false) (named : existing.name = bound.name) :
    existing.clashes actual = bound.clashes actual := by
  simp [clashes, shareable, isNumeric, normalName, concrete, concrete', named]

/-- A binding that does not stay as it is gives way to the type it meets. -/
theorem firmer_of_ne {bound actual : Ty} (replaced : bound.firmer actual ≠ bound) :
    bound.firmer actual = actual ∧ (bound.isVar = true ∨ actual.isVar = false ∧
      bound.name = actual.name ∧ bound.concreteness ≤ actual.concreteness) := by
  unfold firmer at *
  grind

/-- A type that could be bound where a binding stood that yields to `bound` can be bound
where `bound` stands, and leaves `bound`, or else what it left there. -/
theorem rebound_of_yieldsTo {existing : Option Ty} {actual bound : Ty}
    (fits : fitsBinding existing actual = true)
    (yields : (rebound existing actual).YieldsTo bound) :
    fitsBinding (some bound) actual = true ∧
      (rebound (some bound) actual = bound ∨
        rebound (some bound) actual = rebound existing actual) := by
  -- The first pass left the type itself, or kept a binding that is no variable.
  have left : rebound existing actual = actual ∨
      ∃ kept, existing = some kept ∧ kept.isVar = false ∧ kept.firmer actual = kept := by
    cases existing with
    | none => exact .inl rfl
    | some kept =>
        simp only [rebound, firmer]
        grind
  constructor
  · have clear : bound.clashes actual = false := by
      obtain taken | ⟨kept, rfl, concrete, same⟩ := left
      · rw [taken] at yields
        rcases yields with isVar | ⟨-, named, -⟩
        · simp [clashes, isVar]
        · simp [clashes, named]
      · rw [rebound, same] at yields
        obtain ⟨concrete', named, -⟩ := yields.resolve_left (by simp [concrete])
        rw [← clashes_congr concrete concrete' named]
        simpa [fitsBinding] using fits
    simp [fitsBinding, clear]
  · by_cases stays : bound.firmer actual = bound
    · exact .inl stays
    · -- A type that overtakes the final binding overtook all that was bound before it.
      obtain ⟨replaced, firm⟩ := firmer_of_ne stays
      refine .inr (replaced.trans ?_)
      obtain taken | ⟨kept, rfl, concrete, same⟩ := left
      · exact taken.symm
      · rw [rebound, same] at yields
        obtain ⟨concrete', named, le⟩ := yields.resolve_left (by simp [concrete])
        obtain ⟨isVar, named', le'⟩ := firm.resolve_left (by simp [concrete'])
        rw [rebound, firmer, if_neg (by simp [concrete]), if_neg (by simp [isVar]),
          if_pos ⟨named.trans named', Nat.le_trans le le'⟩]

/-- A pass that succeeds from some bindings succeeds from any that are, variable by variable,
those bindings or the ones it leaves, and leaves the same. -/
theorem bindVars_between {bindings between after : Bindings} {meetings : List (String × Ty)}
    (ran : bindVars bindings meetings = (.ok (), after))
    (either : ∀ name, between.get? name = bindings.get? name ∨
      between.get? name = after.get? name) :
    bindVars between meetings = (.ok (), after) := by
  induction meetings generalizing bindings between with
  | nil =>
      cases ran
      have same : between = after := Dict.ext_get? fun name => (either name).elim id id
      rw [same, bindVars]
  | cons meeting meetings ih =>
      obtain ⟨name, actual⟩ := meeting
      obtain ⟨fits, ran⟩ := bindVars_cons_eq_ok_iff.mp ran
      -- What the first pass binds here yields to what is bound in the end.
      obtain ⟨bound, held, yields⟩ :=
        allYield_of_bindVars ran name _ (Dict.get?_insert_self bindings name _)
      have step : fitsBinding (between.get? name) actual = true ∧
          (rebound (between.get? name) actual = bound ∨
            rebound (between.get? name) actual = rebound (bindings.get? name) actual) := by
        rcases either name with same | same
        · rw [same]
          exact ⟨fits, .inr rfl⟩
        · rw [same, held]
          exact rebound_of_yieldsTo fits yields
      refine bindVars_cons_eq_ok_iff.mpr ⟨step.1, ih ran fun other => ?_⟩
      rw [Dict.get?_insert, Dict.get?_insert]
      split
      · next same =>
          rw [same, held]
          rcases step.2 with kept | rebound
          · exact .inr (congrArg some kept)
          · exact .inl (congrArg some rebound)
      · exact either other

/-- Unifying a pattern with a type once more succeeds and changes no binding, whatever the
bindings were before it succeeded the first time. -/
theorem unify_idempotent {pattern actual : Ty} {bindings after : Bindings}
    (unified : pattern.unify bindings actual = (.ok (), after)) :
    pattern.unify after actual = (.ok (), after) := by
  rw [unify_eq] at unified ⊢
  exact bindVars_between unified fun _ => .inr rfl

/-- The second time, the binding of `T` is overtaken by `Box<i32>`, which is as concrete, and
is restored by `Box<string>`. -/
theorem unify_idempotent_overtaken :
    let box (arg : Ty) : Ty := .generic (.abstract "Box") [arg]
    let pattern : Ty := .function [.var "T" none, .var "T" none] (.var "U" none)
    let actual : Ty := .function [box .i32, box .string] .f64
    let bindings : Bindings := Dict.ofList [("T", box (.var "X" none)), ("U", .i32)]
    let after : Bindings := Dict.ofList [("T", box .string), ("U", .i32)]
    pattern.unify bindings actual = (.ok (), after) ∧
      pattern.unify after actual = (.ok (), after) := by
  intro box pattern actual bindings after
  have unified : pattern.unify bindings actual = (.ok (), after) := by rfl
  exact ⟨unified, unify_idempotent unified⟩

/-- After a pass that succeeds, every variable it met is bound, and to a type that what the
meeting left of an earlier binding yields to. -/
theorem met_of_bindVars {bindings after : Bindings} {meetings : List (String × Ty)}
    (ran : bindVars bindings meetings = (.ok (), after)) :
    ∀ meeting ∈ meetings, ∃ existing bound, after.get? meeting.1 = some bound ∧
      fitsBinding existing meeting.2 = true ∧ (rebound existing meeting.2).YieldsTo bound := by
  induction meetings generalizing bindings with
  | nil => nofun
  | cons meeting meetings ih =>
      obtain ⟨name, actual⟩ := meeting
      obtain ⟨fits, ran⟩ := bindVars_cons_eq_ok_iff.mp ran
      refine List.forall_mem_cons.mpr ⟨?_, ih ran⟩
      obtain ⟨bound, held, yields⟩ :=
        allYield_of_bindVars ran name _ (Dict.get?_insert_self bindings name _)
      exact ⟨bindings.get? name, bound, held, fits, yields⟩

/-- After a pass that succeeds, every variable it met is bound, and to a type that does not
clash with any that the variable met; it is no variable if one of those is none. -/
theorem settled_of_bindVars {bindings after : Bindings} {meetings : List (String × Ty)}
    (ran : bindVars bindings meetings = (.ok (), after)) :
    ∀ meeting ∈ meetings, ∃ bound, after.get? meeting.1 = some bound ∧
      bound.clashes meeting.2 = false ∧ (meeting.2.isVar = false → bound.isVar = false) := by
  intro meeting met
  obtain ⟨existing, bound, held, fits, yields⟩ := met_of_bindVars ran meeting met
  refine ⟨bound, held, by simpa [fitsBinding] using (rebound_of_yieldsTo fits yields).1, ?_⟩
  intro concrete
  have kept : (rebound existing meeting.2).isVar = false := by
    cases existing with
    | none => exact concrete
    | some existing =>
        simp only [rebound, firmer]
        grind
  exact (yields.resolve_left (by simp [kept])).1

/-- A pass that succeeds has bound the variables it met, and no others. -/
theorem contains_bindVars_iff {bindings after : Bindings} {meetings : List (String × Ty)}
    {name : String} (ran : bindVars bindings meetings = (.ok (), after)) :
    after.contains name = true ↔
      bindings.contains name = true ∨ ∃ actual, (name, actual) ∈ meetings := by
  have adds := addsOnly_bindVars bindings meetings
  rw [ran] at adds
  refine ⟨adds name, ?_⟩
  rintro (bound | ⟨actual, met⟩)
  · exact (allYield_of_bindVars ran).contains bound
  · obtain ⟨bound, held, -⟩ := settled_of_bindVars ran _ met
    exact Dict.contains_iff.mpr ⟨bound, held⟩

end ModuleTyping.Ty
