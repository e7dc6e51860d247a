import ModuleTyping.Proofs.Unification.Soft
import ModuleTyping.Proofs.Unification.Strict

/-!
# Fitting and unifying simple patterns

Fitting and unifying go over a pattern of variables, arrays, named types and applications of
named types in the same way: where the shapes go together, they meet the same variables with
the same types (`trials_eq_meetings`). Their bindings differ on the way, since fitting keeps
the first type that a variable meets and unifying may put a later one in its place. But all
types that a variable meets are compared under the name of the one that fitting leaves, and
types of one name never clash. So unifying succeeds where fitting does, and binds the same
variables.
-/

namespace ModuleTyping.Ty

/-! ### Simple patterns -/

/-- A scalar or a declared type, known by a name of its own. -/
def isNamed : Ty → Bool
  | primitive _ => true
  | record _ _ => true
  | sum _ _ => true
  | abstract _ => true
  | _ => false

mutual

/-- The pattern is built of variables, arrays, named types, applications of named types, and
the unit type. -/
def isSimple : Ty → Bool
  | var _ _ => true
  | array element => element.isSimple
  | generic base args => base.isNamed && areSimple args
  | unit => true
  | ty => ty.isNamed

/-- All patterns of the list are simple. -/
def areSimple : List Ty → Bool
  | [] => true
  | ty :: rest => ty.isSimple && areSimple rest

end

theorem named_meetings {pattern : Ty} (named : pattern.isNamed = true) (actual : Ty) :
    pattern.meetings actual = [] := by
  cases pattern <;> first | rfl | cases named

/-- What unification meets, as trials. -/
def meetingTrials (meetings : List (String × Ty)) : List Trial :=
  meetings.map fun meeting => .meeting meeting.1 meeting.2

theorem trials_of_leaf {pattern actual : Ty} (other : pattern.head = .other)
    (alike : .mismatch ∉ pattern.trials actual) : pattern.trials actual = [] := by
  rw [trials_of_head other] at alike ⊢
  by_cases equal : pattern.equivalent actual = true
  · rw [if_pos equal]
  · rw [if_neg equal] at alike
    exact absurd (.head _) alike

mutual

/-- Where no shapes differ, fitting a simple pattern meets what unifying meets. -/
theorem trials_eq_meetings : ∀ pattern actual : Ty, pattern.isSimple = true →
    .mismatch ∉ pattern.trials actual →
      pattern.trials actual = meetingTrials (pattern.meetings actual)
  | var _ _, _, _, _ => rfl
  | array element, actual, simple, alike => by
      cases actual with
      | array actual => exact trials_eq_meetings element actual simple alike
      | _ => exact absurd (.head _) alike
  | generic base args, actual, simple, alike => by
      cases actual with
      | generic actualBase actualArgs =>
          rw [isSimple, Bool.and_eq_true] at simple
          rw [trials] at alike ⊢
          split at alike
          · next shape =>
              -- Unification goes over the bases as well, but meets no variable in a named one.
              rw [if_pos shape, meetings, named_meetings simple.1, List.nil_append]
              exact trialsAll_eq_meetings args actualArgs simple.2 alike
          · exact absurd (.head _) alike
      | _ => exact absurd (.head _) alike
  | primitive _, _, _, alike | record _ _, _, _, alike | sum _ _, _, _, alike
  | abstract _, _, _, alike | unit, _, _, alike => trials_of_leaf rfl alike
  | function _ _, _, simple, _ | ref _, _, simple, _ | mutRef _, _, simple, _
  | map _ _, _, simple, _ => by cases simple

theorem trialsAll_eq_meetings : ∀ patterns actuals : List Ty, areSimple patterns = true →
    .mismatch ∉ trialsAll patterns actuals →
      trialsAll patterns actuals = meetingTrials (meetingsAll patterns actuals)
  | pattern :: patterns, actual :: actuals, simple, alike => by
      rw [areSimple, Bool.and_eq_true] at simple
      rw [trialsAll, List.mem_append, not_or] at alike
      rw [trialsAll, meetingsAll, trials_eq_meetings pattern actual simple.1 alike.1,
        trialsAll_eq_meetings patterns actuals simple.2 alike.2]
      exact List.map_append.symm
  | [], _, _, _ => rfl
  | _ :: _, [], _, _ => rfl

end

/-! ### Types of one name -/

theorem normalName_eq_of_equivalent {a b : Ty} (equal : a.equivalent b = true) :
    a.normalName = b.normalName := by
  by_cases apart : a.head = .other ∨ a.head ≠ b.head
  · rw [equivalent_of_head apart] at equal
    exact eq_of_beq equal
  · cases a with
    | var name constraint =>
        cases b with
        | var name' constraint' => exact congrArg ModuleTyping.normalName (eq_of_beq equal)
        | _ => simp [head] at apart
    | generic base args =>
        cases b with
        | generic base' args' =>
            rw [equivalent, Bool.and_eq_true] at equal
            exact congrArg ModuleTyping.normalName (eq_of_beq equal.1)
        | _ => simp [head] at apart
    | array element =>
        cases b with
        | array element' => rfl
        | _ => simp [head] at apart
    | _ => simp [head] at apart

theorem clashes_of_normalName {existing actual : Ty}
    (named : existing.normalName = actual.normalName) : existing.clashes actual = false := by
  simp [clashes, shareable, named]

/-- Each binding is compared under the name of the one that the reference has for the
variable. -/
def NamedAs (bindings reference : Bindings) : Prop :=
  ∀ name ty, bindings.get? name = some ty →
    ∃ bound, reference.get? name = some bound ∧ ty.normalName = bound.normalName

/-- One step: a variable that meets a type of the name it has in the reference can be bound to
it, and what it is bound to then has that name. -/
theorem NamedAs.step {bindings reference : Bindings} {name : String} {actual bound : Ty}
    (named : NamedAs bindings reference) (held : reference.get? name = some bound)
    (alike : actual.normalName = bound.normalName) :
    fitsBinding (bindings.get? name) actual = true ∧
      NamedAs (bindings.insert name (rebound (bindings.get? name) actual)) reference := by
  have existing_alike : ∀ existing, bindings.get? name = some existing →
      existing.normalName = bound.normalName := by
    intro existing before
    obtain ⟨_, held', same⟩ := named name existing before
    cases held.symm.trans held'
    exact same
  constructor
  · cases before : bindings.get? name with
    | none => rfl
    | some existing =>
        have clear := clashes_of_normalName ((existing_alike existing before).trans alike.symm)
        simp [fitsBinding, clear]
  · have rebound_alike : (rebound (bindings.get? name) actual).normalName = bound.normalName := by
      cases before : bindings.get? name with
      | none => exact alike
      | some existing =>
          by_cases stays : existing.firmer actual = existing
          · rw [rebound, stays, existing_alike existing before]
          · rw [rebound, (firmer_of_ne stays).1, alike]
    intro other ty stored
    rw [Dict.get?_insert] at stored
    split at stored
    · next same =>
        cases stored
        exact ⟨bound, same ▸ held, rebound_alike⟩
    · exact named other ty stored

/-- All steps: types that fit the reference's bindings can be bound one after another. -/
theorem bindVars_of_holds {bindings reference : Bindings} {meetings : List (String × Ty)}
    (named : NamedAs bindings reference)
    (holds : ∀ trial ∈ meetingTrials meetings, trial.Holds reference) :
    ∃ after, bindVars bindings meetings = (.ok (), after) := by
  induction meetings generalizing bindings with
  | nil => exact ⟨bindings, rfl⟩
  | cons meeting meetings ih =>
      obtain ⟨name, actual⟩ := meeting
      obtain ⟨⟨bound, held, fits⟩, rest⟩ := List.forall_mem_cons.mp holds
      obtain ⟨clear, named⟩ := named.step held (normalName_eq_of_equivalent fits).symm
      obtain ⟨after, ran⟩ := ih named rest
      exact ⟨after, bindVars_cons_eq_ok_iff.mpr ⟨clear, ran⟩⟩

/-- Where a type fits a simple pattern, it can be unified with it, and the same variables are
bound. -/
theorem unify_of_fit {pattern actual : Ty} {bindings fitted : Bindings}
    (simple : pattern.isSimple = true) (success : pattern.fit bindings actual = (true, fitted)) :
    ∃ unified, pattern.unify bindings actual = (.ok (), unified) ∧
      unified.keys = fitted.keys := by
  rw [fit_eq] at success
  -- The bindings that fitting leaves are the reference: all that was bound before is in them.
  have kept : fitted.Extends bindings := by
    simpa only [success] using extends_attempt bindings (pattern.trials actual)
  have listed := trials_eq_meetings pattern actual simple (holds_of_attempt success _)
  rw [listed] at success
  obtain ⟨unified, ran⟩ := bindVars_of_holds
    (fun name ty held => ⟨ty, kept name ty held, rfl⟩) (holds_of_attempt success)
  refine ⟨unified, by rw [unify_eq, ran], Dict.keys_eq_of_contains fun name => ?_⟩
  rw [Bool.eq_iff_iff, contains_bindVars_iff ran, contains_attempt_iff success]
  simp [meetingTrials]

/-- Fitting keeps `Box`, which `T` met first; unifying puts `Box<i32>` in its place. -/
theorem unify_of_fit_overtaken :
    let box : Ty := .abstract "Box"
    let pattern : Ty := .generic (.abstract "Pair") [.var "T" none, .array (.var "T" none)]
    let actual : Ty := .generic (.abstract "Pair") [box, .array (.generic box [.i32])]
    let fitted : Bindings := Dict.ofList [("T", box)]
    pattern.isSimple = true ∧ pattern.fit ∅ actual = (true, fitted) ∧
      ∃ unified, pattern.unify ∅ actual = (.ok (), unified) ∧ unified.keys = fitted.keys := by
  intro box pattern actual fitted
  have success : pattern.fit ∅ actual = (true, fitted) := by rfl
  exact ⟨rfl, success, unify_of_fit rfl success⟩

end ModuleTyping.Ty
