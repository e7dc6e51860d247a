import ModuleTyping.Proofs.Unification.Strict

/-!
# The types that one variable meets

A pass of unification treats each variable by itself. What it leaves a variable bound to is
one of the types that the variable met and depends on those alone (`get?_of_bindVars`,
`mem_of_bindVars`). It succeeds exactly if no variable meets two types that clash, since types
that can share a binding with one that is no variable can share one with each other. So a pass
that succeeds does so over any part of what it met.
-/

namespace ModuleTyping.Ty

/-- The types that a variable meets, in order. -/
def metBy (name : String) (meetings : List (String × Ty)) : List Ty :=
  meetings.filterMap fun meeting => if meeting.1 = name then some meeting.2 else none

theorem mem_metBy {name : String} {meetings : List (String × Ty)} {ty : Ty} :
    ty ∈ metBy name meetings ↔ (name, ty) ∈ meetings := by
  simp [metBy, List.mem_filterMap]

theorem metBy_cons (name met : String) (ty : Ty) (meetings : List (String × Ty)) :
    metBy name ((met, ty) :: meetings) =
      if met = name then ty :: metBy name meetings else metBy name meetings := by
  by_cases same : met = name <;> simp [metBy, same]

theorem metBy_append (name : String) (first rest : List (String × Ty)) :
    metBy name (first ++ rest) = metBy name first ++ metBy name rest :=
  List.filterMap_append

/-- A variable is bound by the types that it meets itself. -/
theorem get?_of_bindVars {bindings after : Bindings} {meetings : List (String × Ty)}
    (ran : bindVars bindings meetings = (.ok (), after)) (name : String) :
    after.get? name = (metBy name meetings).foldl (fun existing ty => some (rebound existing ty))
      (bindings.get? name) := by
  induction meetings generalizing bindings with
  | nil =>
      cases ran
      rfl
  | cons meeting meetings ih =>
      obtain ⟨met, ty⟩ := meeting
      obtain ⟨-, ran⟩ := bindVars_cons_eq_ok_iff.mp ran
      rw [ih ran, Dict.get?_insert, metBy_cons]
      by_cases same : name = met
      · simp [same]
      · simp [same, Ne.symm same]

/-- A variable that meets a type is bound to it or stays bound as it was. -/
theorem rebound_eq_or (existing : Option Ty) (actual : Ty) :
    rebound existing actual = actual ∨ existing = some (rebound existing actual) := by
  cases existing with
  | none => exact .inl rfl
  | some existing =>
      simp only [rebound, firmer]
      grind

/-- A variable is bound to one of the types that it meets. -/
theorem mem_of_bindVars {after : Bindings} {meetings : List (String × Ty)}
    (ran : bindVars ∅ meetings = (.ok (), after)) {name : String} {ty : Ty}
    (held : after.get? name = some ty) : (name, ty) ∈ meetings := by
  have one_of : ∀ name ty, (bindVars ∅ meetings).2.get? name = some ty → (name, ty) ∈ meetings := by
    refine @bindVars_preserves (fun bindings => ∀ name ty, bindings.get? name = some ty →
      (name, ty) ∈ meetings) ∅ meetings (fun _ _ held => by cases held) ?_
    intro bindings name actual met before other ty held
    rw [Dict.get?_insert] at held
    split at held
    · next same =>
        subst same
        cases held
        rcases rebound_eq_or (bindings.get? other) actual with taken | kept
        · rwa [taken]
        · exact before other _ kept
    · exact before other ty held
  rw [ran] at one_of
  exact one_of name ty held

/-- No variable meets two types that clash. -/
def Clear (meetings : List (String × Ty)) : Prop :=
  ∀ name a b, (name, a) ∈ meetings → (name, b) ∈ meetings → a.clashes b = false

theorem Clear.subset {meetings fewer : List (String × Ty)} (clear : Clear meetings)
    (subset : ∀ meeting ∈ fewer, meeting ∈ meetings) : Clear fewer :=
  fun name a b first second => clear name a b (subset _ first) (subset _ second)

theorem clashes_eq_false_iff {a b : Ty} (concrete : a.isVar = false)
    (concrete' : b.isVar = false) :
    a.clashes b = false ↔ a.normalName = b.normalName ∨
      (isNumericName a.normalName = true ∧ isNumericName b.normalName = true) := by
  by_cases same : a.name = b.name
  · have named : a.normalName = b.normalName := congrArg ModuleTyping.normalName same
    simp [clashes, same, named]
  · simp [clashes, shareable, isNumeric, concrete, concrete', same, or_iff_not_imp_left]

/-- Types that can share the binding of a type that is no variable can share one. -/
theorem not_clashes_of_bound {bound a b : Ty} (concrete : bound.isVar = false)
    (first : bound.clashes a = false) (second : bound.clashes b = false) :
    a.clashes b = false := by
  cases isVar : a.isVar with
  | true => simp [clashes, isVar]
  | false =>
      cases isVar' : b.isVar with
      | true => simp [clashes, isVar']
      | false =>
          rw [clashes_eq_false_iff concrete isVar] at first
          rw [clashes_eq_false_iff concrete isVar'] at second
          rw [clashes_eq_false_iff isVar isVar']
          grind

theorem clear_of_bindVars {bindings after : Bindings} {meetings : List (String × Ty)}
    (ran : bindVars bindings meetings = (.ok (), after)) : Clear meetings := by
  intro name a b first second
  obtain ⟨bound, held, apart, firm⟩ := settled_of_bindVars ran _ first
  obtain ⟨bound', held', apart', -⟩ := settled_of_bindVars ran _ second
  cases held.symm.trans held'
  cases isVar : a.isVar with
  | true => simp [clashes, isVar]
  | false => exact not_clashes_of_bound (firm isVar) apart apart'

/-- A pass over types that do not clash with each other, or with what is bound, succeeds. -/
theorem bindVars_of_clear {bindings : Bindings} {meetings : List (String × Ty)}
    (clear : Clear meetings)
    (fits : ∀ meeting ∈ meetings, fitsBinding (bindings.get? meeting.1) meeting.2 = true) :
    ∃ after, bindVars bindings meetings = (.ok (), after) := by
  induction meetings generalizing bindings with
  | nil => exact ⟨bindings, rfl⟩
  | cons meeting meetings ih =>
      obtain ⟨name, actual⟩ := meeting
      obtain ⟨fits, later⟩ := List.forall_mem_cons.mp fits
      -- What stays bound is the earlier binding or the type just met.
      have kept : ∀ ty, (name, ty) ∈ meetings →
          (rebound (bindings.get? name) actual).clashes ty = false := by
        intro ty met
        rcases rebound_eq_or (bindings.get? name) actual with taken | kept
        · rw [taken]
          exact clear name actual ty (.head _) (.tail _ met)
        · have apart := later (name, ty) met
          rw [kept] at apart
          simpa [fitsBinding] using apart
      have later' : ∀ meeting ∈ meetings, fitsBinding
          ((bindings.insert name (rebound (bindings.get? name) actual)).get? meeting.1)
          meeting.2 = true := by
        intro meeting met
        rw [Dict.get?_insert]
        split
        · next same => simp [fitsBinding, kept meeting.2 (same ▸ met)]
        · exact later meeting met
      obtain ⟨after, ran⟩ := ih (clear.subset fun _ => .tail _) later'
      exact ⟨after, bindVars_cons_eq_ok_iff.mpr ⟨fits, ran⟩⟩

end ModuleTyping.Ty
