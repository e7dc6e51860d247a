import ModuleTyping.Proofs.Ty.Erasure
import ModuleTyping.Proofs.Unification.Soft
import ModuleTyping.Proofs.Unification.Strict

/-!
# Comparing types known by their names

Comparing, fitting and unifying types come to the same when names stand in place of the
declarations that they tell (`Ty.erase`), and bind the same variables, to types that differ
in nothing else. Unification looks into the base of an application, which is erased also
where it has open variables, so that much holds for patterns that do not apply a variable
(`isRooted`).
-/

namespace ModuleTyping.Ty

variable (known : Outlines)

/-! ### Comparing and fitting -/

@[simp] theorem head_erase (ty : Ty) : (ty.erase known).head = ty.head := by
  cases ty <;> rw [erase] <;> first | rfl | (split <;> rfl)

theorem equivalent_erase_of_head {a b : Ty} (apart : a.head = .other ∨ a.head ≠ b.head) :
    (a.erase known).equivalent (b.erase known) = a.equivalent b := by
  have erased : (a.erase known).head = .other ∨ (a.erase known).head ≠ (b.erase known).head := by
    simpa using apart
  rw [equivalent_of_head erased, equivalent_of_head apart, normalName_erase, normalName_erase]

mutual

theorem equivalent_erase : ∀ a b : Ty,
    (a.erase known).equivalent (b.erase known) = a.equivalent b
  | var name constraint, b => by
      cases b with
      | var other constraint' => rfl
      | _ => exact equivalent_erase_of_head known (.inr nofun)
  | generic base args, b => by
      cases b with
      | generic base' args' =>
          have names := name_erase known (generic base args)
          have names' := name_erase known (generic base' args')
          rw [erase, name, name] at names names'
          rw [erase, erase, equivalent, equivalent, names, names', eraseAll_equivalent args args']
      | _ => exact equivalent_erase_of_head known (.inr nofun)
  | array element, b => by
      cases b with
      | array element' => exact equivalent_erase element element'
      | _ => exact equivalent_erase_of_head known (.inr nofun)
  | record _ _, _ | sum _ _, _ | primitive _, _ | abstract _, _ | unit, _ | function _ _, _
  | ref _, _ | mutRef _, _ | map _ _, _ => equivalent_erase_of_head known (.inl rfl)

theorem eraseAll_equivalent : ∀ as bs : List Ty,
    equivalentAll (eraseAll known as) (eraseAll known bs) = equivalentAll as bs
  | [], [] => rfl
  | [], _ :: _ => rfl
  | _ :: _, [] => rfl
  | a :: as, b :: bs => by
      rw [eraseAll, eraseAll, equivalentAll, equivalentAll, equivalent_erase a b,
        eraseAll_equivalent as bs]

end

/-- What fitting comes to and binds, with names in place of declarations. -/
def eraseFit (known : Outlines) (fitted : Bool × Bindings) : Bool × Bindings :=
  (fitted.1, fitted.2.mapValues (erase known))

theorem fit_erase_of_head_ne (bindings : Bindings) {pattern actual : Ty}
    (taken : pattern.head = .generic ∨ pattern.head = .array)
    (apart : pattern.head ≠ actual.head) :
    (pattern.erase known).fit (bindings.mapValues (erase known)) (actual.erase known) =
      eraseFit known (pattern.fit bindings actual) := by
  rw [fit_of_head_ne _ taken apart, fit_of_head_ne _ (by simpa using taken) (by simpa using apart)]
  rfl

theorem fit_erase_of_head (bindings : Bindings) {pattern actual : Ty}
    (other : pattern.head = .other) :
    (pattern.erase known).fit (bindings.mapValues (erase known)) (actual.erase known) =
      eraseFit known (pattern.fit bindings actual) := by
  rw [fit_of_head _ other, fit_of_head _ ((head_erase known pattern).trans other),
    equivalent_erase, eraseFit]

mutual

theorem fit_erase : ∀ (bindings : Bindings) (pattern actual : Ty),
    (pattern.erase known).fit (bindings.mapValues (erase known)) (actual.erase known) =
      eraseFit known (pattern.fit bindings actual)
  | bindings, var name constraint, actual => by
      rw [erase, fit, fit, Dict.get?_mapValues]
      rcases bindings.get? name with _ | bound
      · dsimp only [Option.map_none]
        rw [eraseFit, Dict.mapValues_insert]
      · dsimp only [Option.map_some]
        rw [equivalent_erase, eraseFit]
  | bindings, generic base args, actual => by
      cases actual with
      | generic base' args' =>
          have names := name_erase known (generic base args)
          have names' := name_erase known (generic base' args')
          rw [erase, name, name] at names names'
          rw [erase, erase, fit, fit, names, names', fitAll_erase bindings args args']
          simp only [eraseAll_eq, List.length_map]
          split <;> rfl
      | _ => exact fit_erase_of_head_ne known bindings (.inl rfl) nofun
  | bindings, array element, actual => by
      cases actual with
      | array element' => exact fit_erase bindings element element'
      | _ => exact fit_erase_of_head_ne known bindings (.inr rfl) nofun
  | bindings, record _ _, _ | bindings, sum _ _, _ | bindings, primitive _, _
  | bindings, abstract _, _ | bindings, unit, _ | bindings, function _ _, _ | bindings, ref _, _
  | bindings, mutRef _, _ | bindings, map _ _, _ => fit_erase_of_head known bindings rfl

theorem fitAll_erase : ∀ (bindings : Bindings) (patterns actuals : List Ty),
    fitAll (bindings.mapValues (erase known)) (eraseAll known patterns) (eraseAll known actuals) =
      eraseFit known (fitAll bindings patterns actuals)
  | bindings, pattern :: patterns, actual :: actuals => by
      rw [eraseAll, eraseAll, fitAll, fitAll, fit_erase bindings pattern actual, eraseFit]
      rcases pattern.fit bindings actual with ⟨_ | _, fitted⟩
      · rfl
      · exact fitAll_erase fitted patterns actuals
  | bindings, [], _ => rfl
  | bindings, _ :: _, [] => rfl

end

/-! ### Unification -/

mutual

/-- No application in the type, as far as unification looks, is one of a variable. -/
def isRooted : Ty → Bool
  | generic base args => !base.isVar && base.isRooted && areRooted args
  | array element => element.isRooted
  | function params result => areRooted params && result.isRooted
  | ref referent => referent.isRooted
  | mutRef referent => referent.isRooted
  | map key value => key.isRooted && value.isRooted
  | primitive _ => true
  | var _ _ => true
  | record _ _ => true
  | sum _ _ => true
  | abstract _ => true
  | unit => true

/-- No application in the types is one of a variable. -/
def areRooted : List Ty → Bool
  | [] => true
  | ty :: rest => ty.isRooted && areRooted rest

end

mutual

theorem isRooted_erase : ∀ ty : Ty, (ty.erase known).isRooted = ty.isRooted
  | record _ _ => by
      rw [erase]
      split <;> rfl
  | sum _ _ => by
      rw [erase]
      split <;> rfl
  | generic base args => by
      rw [erase]
      split
      · next told =>
          have rooted : base.isVar = false ∧ base.isRooted = true := by
            cases base <;> first | exact ⟨rfl, rfl⟩ | cases told
          rw [isRooted, isRooted, areRooted_erase args, rooted.1, rooted.2]
          rfl
      · rw [isRooted, isRooted, isVar_erase, isRooted_erase base, areRooted_erase args]
  | array element => isRooted_erase element
  | function params result => by
      rw [erase, isRooted, isRooted, areRooted_erase params, isRooted_erase result]
  | ref referent => isRooted_erase referent
  | mutRef referent => isRooted_erase referent
  | map key value => by
      rw [erase, isRooted, isRooted, isRooted_erase key, isRooted_erase value]
  | primitive _ | var _ _ | abstract _ | unit => rfl

theorem areRooted_erase : ∀ tys : List Ty, areRooted (eraseAll known tys) = areRooted tys
  | [] => rfl
  | ty :: tys => by rw [eraseAll, areRooted, areRooted, isRooted_erase ty, areRooted_erase tys]

end

/-- The type is known by its name. -/
def isNominal : Ty → Bool
  | record _ _ => true
  | sum _ _ => true
  | abstract _ => true
  | _ => false

@[simp] theorem isNominal_erase (ty : Ty) : (ty.erase known).isNominal = ty.isNominal := by
  cases ty <;> rw [erase] <;> first | rfl | (split <;> rfl)

theorem isNominal_of_isTold {ty : Ty} (told : ty.isTold known = true) : ty.isNominal = true := by
  cases ty <;> first | rfl | cases told

/-- A type that is known by its name meets a variable only if that is the whole pattern. -/
theorem meetings_nominal {pattern actual : Ty} (other : pattern.isVar = false)
    (nominal : actual.isNominal = true) : pattern.meetings actual = [] := by
  cases actual with
  | record _ _ | sum _ _ | abstract _ => cases pattern <;> first | rfl | cases other
  | _ => cases nominal

theorem nominal_meetings {pattern : Ty} (nominal : pattern.isNominal = true) (actual : Ty) :
    pattern.meetings actual = [] := by
  cases pattern <;> first | rfl | cases nominal

/-- Meetings with names in place of declarations. -/
def eraseMeetings (known : Outlines) (meetings : List (String × Ty)) : List (String × Ty) :=
  meetings.map fun meeting => (meeting.1, meeting.2.erase known)

theorem meetings_erase_nominal {pattern actual : Ty} (other : pattern.isVar = false)
    (nominal : actual.isNominal = true) :
    (pattern.erase known).meetings (actual.erase known) =
      eraseMeetings known (pattern.meetings actual) := by
  rw [meetings_nominal other nominal, meetings_nominal (by simpa using other)
    (by simpa using nominal)]
  rfl

/-- Declarations that are applied to arguments meet nothing, and the names in their place
do not either. -/
theorem meetings_eraseBase {base base' : Ty} (notVar : base.isVar = false)
    (others : (base.erase known).meetings (base'.erase known) =
      eraseMeetings known (base.meetings base')) :
    (base.eraseBase known).meetings (base'.eraseBase known) =
      eraseMeetings known (base.meetings base') := by
  unfold eraseBase
  by_cases told : base.isTold known = true
  · rw [if_pos told, nominal_meetings (isNominal_of_isTold known told)]
    rfl
  · rw [if_neg told]
    by_cases told' : base'.isTold known = true
    · rw [if_pos told', meetings_nominal notVar (isNominal_of_isTold known told'),
        meetings_nominal (by simpa using notVar) rfl]
      rfl
    · rw [if_neg told', others]

mutual

theorem meetings_erase : ∀ pattern actual : Ty, pattern.isRooted = true →
    (pattern.erase known).meetings (actual.erase known) =
      eraseMeetings known (pattern.meetings actual)
  | var name constraint, actual, _ => rfl
  | generic base args, actual, rooted => by
      cases actual with
      | generic base' args' =>
          rw [isRooted, Bool.and_eq_true, Bool.and_eq_true, Bool.not_eq_true'] at rooted
          obtain ⟨⟨notVar, baseRooted⟩, argsRooted⟩ := rooted
          have bases := meetings_eraseBase known notVar (meetings_erase base base' baseRooted)
          unfold eraseBase at bases
          rw [erase, erase, meetings, meetings, bases, meetingsAll_erase args args' argsRooted]
          exact List.map_append.symm
      | record _ _ | sum _ _ => exact meetings_erase_nominal known rfl rfl
      | _ => rfl
  | array element, actual, rooted => by
      cases actual with
      | array element' => exact meetings_erase element element' rooted
      | record _ _ | sum _ _ => exact meetings_erase_nominal known rfl rfl
      | _ => rfl
  | ref referent, actual, rooted => by
      cases actual with
      | ref referent' => exact meetings_erase referent referent' rooted
      | record _ _ | sum _ _ => exact meetings_erase_nominal known rfl rfl
      | _ => rfl
  | mutRef referent, actual, rooted => by
      cases actual with
      | mutRef referent' => exact meetings_erase referent referent' rooted
      | record _ _ | sum _ _ => exact meetings_erase_nominal known rfl rfl
      | _ => rfl
  | function params result, actual, rooted => by
      cases actual with
      | function params' result' =>
          rw [isRooted, Bool.and_eq_true] at rooted
          rw [erase, erase, meetings, meetings, meetingsAll_erase params params' rooted.1,
            meetings_erase result result' rooted.2]
          exact List.map_append.symm
      | record _ _ | sum _ _ => exact meetings_erase_nominal known rfl rfl
      | _ => rfl
  | map key value, actual, rooted => by
      cases actual with
      | map key' value' =>
          rw [isRooted, Bool.and_eq_true] at rooted
          rw [erase, erase, meetings, meetings, meetings_erase key key' rooted.1,
            meetings_erase value value' rooted.2]
          exact List.map_append.symm
      | record _ _ | sum _ _ => exact meetings_erase_nominal known rfl rfl
      | _ => rfl
  | record name fields, actual, _ => by
      rw [nominal_meetings (isNominal_erase known (record name fields))]
      rfl
  | sum name variants, actual, _ => by
      rw [nominal_meetings (isNominal_erase known (sum name variants))]
      rfl
  | abstract _, _, _ | primitive _, _, _ | unit, _, _ => rfl

theorem meetingsAll_erase : ∀ patterns actuals : List Ty, areRooted patterns = true →
    meetingsAll (eraseAll known patterns) (eraseAll known actuals) =
      eraseMeetings known (meetingsAll patterns actuals)
  | pattern :: patterns, actual :: actuals, rooted => by
      rw [areRooted, Bool.and_eq_true] at rooted
      rw [eraseAll, eraseAll, meetingsAll, meetingsAll, meetings_erase pattern actual rooted.1,
        meetingsAll_erase patterns actuals rooted.2]
      exact List.map_append.symm
  | [], _, _ => rfl
  | _ :: _, [], _ => rfl

end

/-- What binding comes to, with names in place of declarations. -/
def eraseBound (known : Outlines) (bound : Except Conflict Unit × Bindings) :
    Except Conflict Unit × Bindings :=
  (bound.1.mapError fun conflict =>
      ⟨conflict.varName, conflict.first.erase known, conflict.second.erase known⟩,
    bound.2.mapValues (erase known))

theorem bindVar_erase (bindings : Bindings) (name : String) (actual : Ty) :
    bindVar (bindings.mapValues (erase known)) name (actual.erase known) =
      eraseBound known (bindVar bindings name actual) := by
  have shareable (a b : Ty) :
      (a.erase known).shareable (b.erase known) = a.shareable b := by
    simp only [shareable, isNumeric, normalName_erase, isVar_erase]
  unfold bindVar
  rw [Dict.get?_mapValues]
  rcases bindings.get? name with _ | existing
  · dsimp only [Option.map_none, eraseBound]
    rw [Dict.mapValues_insert]
    rfl
  · dsimp only [Option.map_some]
    simp only [isVar_erase, name_erase, concreteness_erase, shareable, ← Dict.mapValues_insert]
    split
    · rfl
    · split
      · rfl
      · split
        · split <;> rfl
        · split <;> rfl

theorem bindVars_erase (bindings : Bindings) (meetings : List (String × Ty)) :
    bindVars (bindings.mapValues (erase known)) (eraseMeetings known meetings) =
      eraseBound known (bindVars bindings meetings) := by
  induction meetings generalizing bindings with
  | nil => rfl
  | cons meeting meetings ih =>
      have first := bindVar_erase known bindings meeting.1 meeting.2
      simp only [eraseMeetings, List.map_cons, bindVars] at ih ⊢
      rw [first]
      rcases bindVar bindings meeting.1 meeting.2 with ⟨conflict | _, bound⟩
      · rfl
      · exact ih bound

theorem unify_erase (bindings : Bindings) {pattern : Ty} (rooted : pattern.isRooted = true)
    (actual : Ty) :
    (pattern.erase known).unify (bindings.mapValues (erase known)) (actual.erase known) =
      eraseBound known (pattern.unify bindings actual) := by
  rw [unify_eq, unify_eq, meetings_erase known pattern actual rooted, bindVars_erase]

end ModuleTyping.Ty
