import Mathlib.Logic.Function.Basic
import ModuleTyping.Proofs.Instantiation.Acceptance
import ModuleTyping.Proofs.Unification.Erasure

/-!
# Type parameters under other names

The type parameters of a signature and the variables of the arguments share one space of names.
They do not get into each other's way: bindings are looked up for the variables of the signature
only, and what a variable is bound to is never substituted into again. So a signature with its
variables renamed accepts the same calls and binds the renamed variables to the same types,
whichever names occur in the arguments. A parameter that applies a variable is the exception,
since the application goes by the variable's name.
-/

namespace ModuleTyping

/-! ### Renaming -/

namespace Ty

mutual

/-- The type with its variables renamed, throughout. -/
def renameVars (rename : String → String) : Ty → Ty
  | var name constraint => var (rename name) constraint
  | array element => array (element.renameVars rename)
  | function params result =>
    function (renameVarsAll rename params) (result.renameVars rename)
  | generic base args => generic (base.renameVars rename) (renameVarsAll rename args)
  | record name fields => record name (renameVarsFields rename fields)
  | sum name variants => sum name (renameVarsVariants rename variants)
  | ref referent => ref (referent.renameVars rename)
  | mutRef referent => mutRef (referent.renameVars rename)
  | map key value => map (key.renameVars rename) (value.renameVars rename)
  | primitive name => primitive name
  | abstract name => abstract name
  | unit => unit

/-- The types with their variables renamed. -/
def renameVarsAll (rename : String → String) : List Ty → List Ty
  | [] => []
  | ty :: rest => ty.renameVars rename :: renameVarsAll rename rest

/-- The fields with the variables of their types renamed. -/
def renameVarsFields (rename : String → String) : List (String × Ty) → List (String × Ty)
  | [] => []
  | (name, ty) :: rest => (name, ty.renameVars rename) :: renameVarsFields rename rest

/-- The variants with the variables of their fields renamed. -/
def renameVarsVariants (rename : String → String) :
    List (String × List Ty) → List (String × List Ty)
  | [] => []
  | (name, tys) :: rest => (name, renameVarsAll rename tys) :: renameVarsVariants rename rest

end

variable (rename : String → String)

theorem renameVarsAll_eq (tys : List Ty) :
    renameVarsAll rename tys = tys.map (renameVars rename) := by
  induction tys with
  | nil => rfl
  | cons ty tys ih => rw [renameVarsAll, List.map_cons, ih]

@[simp] theorem isVar_renameVars (ty : Ty) : (ty.renameVars rename).isVar = ty.isVar := by
  cases ty <;> rfl

@[simp] theorem isAuto_renameVars (ty : Ty) : (ty.renameVars rename).isAuto = ty.isAuto := by
  cases ty <;> rfl

/-- A type that is no variable and applies none keeps its name. -/
theorem name_renameVars : ∀ ty : Ty, ty.isVar = false → ty.isRooted = true →
    (ty.renameVars rename).name = ty.name
  | var _ _, notVar, _ => by cases notVar
  | generic base args, _, rooted => by
      simp only [isRooted, Bool.and_eq_true, Bool.not_eq_true'] at rooted
      exact name_renameVars base rooted.1.1 rooted.1.2
  | array _, _, _ | function _ _, _, _ | record _ _, _, _ | sum _ _, _, _ | ref _, _, _
  | mutRef _, _, _ | map _ _, _, _ | primitive _, _, _ | abstract _, _, _ | unit, _, _ => rfl

/-- Meetings of the renamed variables. -/
def renameMeetings (meetings : List (String × Ty)) : List (String × Ty) :=
  meetings.map fun meeting => (rename meeting.1, meeting.2)

theorem renameMeetings_append (first rest : List (String × Ty)) :
    renameMeetings rename (first ++ rest) =
      renameMeetings rename first ++ renameMeetings rename rest :=
  List.map_append

mutual

/-- Renamed variables meet what the variables met. -/
theorem meetings_renameVars : ∀ pattern actual : Ty,
    (pattern.renameVars rename).meetings actual = renameMeetings rename (pattern.meetings actual)
  | var _ _, _ => rfl
  | array element, actual => by
      cases actual with
      | array actual => exact meetings_renameVars element actual
      | _ => rfl
  | ref referent, actual => by
      cases actual with
      | ref actual => exact meetings_renameVars referent actual
      | _ => rfl
  | mutRef referent, actual => by
      cases actual with
      | mutRef actual => exact meetings_renameVars referent actual
      | _ => rfl
  | function params result, actual => by
      cases actual with
      | function actualParams actualResult =>
          simp only [renameVars, meetings, renameMeetings_append,
            meetingsAll_renameVars params actualParams, meetings_renameVars result actualResult]
      | _ => rfl
  | generic base args, actual => by
      cases actual with
      | generic actualBase actualArgs =>
          simp only [renameVars, meetings, renameMeetings_append,
            meetings_renameVars base actualBase, meetingsAll_renameVars args actualArgs]
      | _ => rfl
  | map key value, actual => by
      cases actual with
      | map actualKey actualValue =>
          simp only [renameVars, meetings, renameMeetings_append,
            meetings_renameVars key actualKey, meetings_renameVars value actualValue]
      | _ => rfl
  | record _ _, _ | sum _ _, _ | primitive _, _ | abstract _, _ | unit, _ => rfl

theorem meetingsAll_renameVars : ∀ patterns actuals : List Ty,
    meetingsAll (renameVarsAll rename patterns) actuals =
      renameMeetings rename (meetingsAll patterns actuals)
  | pattern :: patterns, actual :: actuals => by
      simp only [renameVarsAll, meetingsAll, renameMeetings_append,
        meetings_renameVars pattern actual, meetingsAll_renameVars patterns actuals]
  | [], _ => rfl
  | _ :: _, [] => rfl

end

end Ty

/-- The type parameter under another name. -/
def TypeParam.rename (rename : String → String) (param : TypeParam) : TypeParam :=
  { param with name := rename param.name }

/-- The signature with its type parameters under other names. -/
def Signature.renameVars (rename : String → String) (sig : Signature) : Signature :=
  { sig with
    params := sig.params.map (Ty.renameVars rename)
    result := sig.result.renameVars rename
    typeParams := sig.typeParams.map (TypeParam.rename rename) }

@[simp] theorem Signature.isGeneric_renameVars (rename : String → String) (sig : Signature) :
    (sig.renameVars rename).isGeneric = sig.isGeneric := by
  simp [isGeneric, renameVars]

/-! ### Bindings of renamed variables -/

open Stateful (Corresponds)
open Ty (bindVars meetingsAll)

/-- The second bindings have for each variable, under its new name, what the first have for it. -/
def Bindings.Renamed (rename : String → String) (bindings bindings' : Bindings) : Prop :=
  ∀ name, bindings'.get? (rename name) = bindings.get? name

open Bindings (Renamed)

section Renamed

variable {rename : String → String} (injective : Function.Injective rename)
  {bindings bindings' : Bindings} (renamed : Renamed rename bindings bindings')

include injective renamed

theorem Bindings.Renamed.insert (name : String) (ty : Ty) :
    Renamed rename (bindings.insert name ty) (bindings'.insert (rename name) ty) := by
  intro other
  simp only [Dict.get?_insert, injective.eq_iff, renamed other]

namespace Ty

/-- One step: a renamed variable clashes with a type if the variable does, and is bound to what
the variable is bound to. -/
theorem bindVar_renamed (name : String) (actual : Ty) :
    Corresponds (Renamed rename) (fun _ _ => True) (bindVar bindings name actual)
      (bindVar bindings' (rename name) actual) := by
  have same := renamed name
  by_cases fits : fitsBinding (bindings.get? name) actual = true
  · rw [bindVar_eq_ok_iff.mpr ⟨fits, rfl⟩, bindVar_eq_ok_iff.mpr ⟨same ▸ fits, rfl⟩, same]
    exact ⟨trivial, renamed.insert injective name _⟩
  · rcases ran : bindVar bindings name actual with ⟨conflict | _, next⟩
    · rcases ran' : bindVar bindings' (rename name) actual with ⟨conflict' | _, next'⟩
      · trivial
      · exact absurd (same ▸ (bindVar_eq_ok_iff.mp ran').1) fits
    · exact absurd (bindVar_eq_ok_iff.mp ran).1 fits

/-- All steps: renamed variables are bound one after another as the variables are. -/
theorem bindVars_renamed (meetings : List (String × Ty)) :
    Corresponds (Renamed rename) (fun _ _ => True) (bindVars bindings meetings)
      (bindVars bindings' (renameMeetings rename meetings)) := by
  induction meetings generalizing bindings bindings' with
  | nil => exact ⟨trivial, renamed⟩
  | cons meeting meetings ih =>
      obtain ⟨name, actual⟩ := meeting
      have first := bindVar_renamed injective renamed name actual
      simp only [renameMeetings, List.map_cons, bindVars] at ih ⊢
      obtain ⟨_, _, _, _, ran, ran'⟩ | ⟨_, _, _, _, ran, ran', -, next⟩ := first.cases
      · rw [ran, ran']
        trivial
      · rw [ran, ran']
        exact ih next

theorem unify_renamed (pattern actual : Ty) :
    Corresponds (Renamed rename) (fun _ _ => True) (pattern.unify bindings actual)
      ((pattern.renameVars rename).unify bindings' actual) := by
  rw [unify_eq, unify_eq, meetings_renameVars]
  exact bindVars_renamed injective renamed _

omit injective in
/-- With its variables renamed, a parameter takes the arguments that it took before. -/
theorem usableAs_renamed (actual : Ty) {param : Ty} (rooted : param.isRooted = true) :
    actual.usableAs ((param.renameVars rename).subst bindings') =
      actual.usableAs (param.subst bindings) := by
  cases isVar : param.isVar with
  | true =>
      cases param with
      | var name constraint =>
          rw [renameVars, usableAs_subst_var, usableAs_subst_var, renamed name]
      | _ => cases isVar
  | false =>
      have isVar' : (param.renameVars rename).isVar = false := by simpa using isVar
      rw [usableAs_subst actual bindings isVar, usableAs_subst actual bindings' isVar']
      simp only [usableAs, isAuto_renameVars, isVar_renameVars, normalName,
        name_renameVars rename param isVar rooted]

end Ty

namespace Instantiation

omit injective in
theorem isComplete_renamed (sig : Signature) :
    isComplete (sig.renameVars rename) bindings' = isComplete sig bindings := by
  unfold isComplete Signature.renameVars
  rw [List.all_map]
  refine congrArg (List.all sig.typeParams) (funext fun param => ?_)
  simp only [Function.comp_apply, TypeParam.rename, renamed param.name]

theorem refine_renamed (sig : Signature) (expected : Option Ty) :
    Renamed rename (refine sig expected bindings)
      (refine (sig.renameVars rename) expected bindings') := by
  unfold refine
  cases expected with
  | none => exact renamed
  | some expected =>
      have unified := Ty.unify_renamed injective renamed sig.result expected
      dsimp only
      rw [isComplete_renamed renamed sig]
      split
      · exact renamed
      · rw [show (sig.renameVars rename).result = sig.result.renameVars rename from rfl]
        obtain ⟨_, _, _, _, ran, ran'⟩ | ⟨_, _, _, _, ran, ran', -, next⟩ := unified.cases
        · rw [ran, ran']
          exact renamed
        · rw [ran, ran']
          exact next

omit injective in
theorem admits_renamed_iff {sig : Signature}
    (rooted : ∀ param ∈ sig.params, param.isRooted = true) (args : List Ty) :
    Admits (sig.renameVars rename) args bindings' ↔ Admits sig args bindings := by
  have constraints : (∀ param ∈ (sig.renameVars rename).typeParams, param.MetUnder bindings') ↔
      ∀ param ∈ sig.typeParams, param.MetUnder bindings := by
    simp only [Signature.renameVars, List.forall_mem_map, TypeParam.MetUnder, TypeParam.rename,
      renamed _]
  have usable : (∀ pair ∈ args.zip (sig.renameVars rename).params,
        pair.1.usableAs (pair.2.subst bindings') = true) ↔
      ∀ pair ∈ args.zip sig.params, pair.1.usableAs (pair.2.subst bindings) = true := by
    simp only [Signature.renameVars, List.zip_map_right, List.forall_mem_map, Prod.map]
    refine forall₂_congr fun pair member => ?_
    rw [id, Ty.usableAs_renamed renamed pair.1 (rooted pair.2 (List.of_mem_zip member).2)]
  exact ⟨fun admits => ⟨constraints.mp admits.constraints, usable.mp admits.usable⟩,
    fun admits => ⟨constraints.mpr admits.constraints, usable.mpr admits.usable⟩⟩

end Instantiation

end Renamed

namespace Instantiation

/-- A generic signature that applies no variable, with its type parameters renamed, accepts the
calls that it accepts, and each type parameter is then bound to the same type under its new name. -/
theorem solve_renamed {rename : String → String} (injective : Function.Injective rename)
    {sig : Signature} (generic : sig.isGeneric = true)
    (rooted : ∀ param ∈ sig.params, param.isRooted = true) (args : List Ty) (name : String)
    (expected : Option Ty) (origin : Origin) (announced : List Mismatch) :
    let original := ((solve sig args name expected origin).run announced).1
    let renamed := ((solve (sig.renameVars rename) args name expected origin).run announced).1
    ((∃ inst, renamed = .ok inst) ↔ ∃ inst, original = .ok inst) ∧
      ∀ inst inst', original = .ok inst → renamed = .ok inst' →
        ∀ v, inst'.bindings.get? (rename v) = inst.bindings.get? v := by
  intro original renamed
  have accepted (inst : Instantiation) : original = .ok inst ↔ _ :=
    (accepts_solve generic args name expected origin).fst_eq_ok_iff
  have accepted' (inst : Instantiation) : renamed = .ok inst ↔ _ :=
    (accepts_solve (by simpa using generic) args name expected origin).fst_eq_ok_iff
  have met : meetingsAll (sig.renameVars rename).params args =
      Ty.renameMeetings rename (meetingsAll sig.params args) := by
    rw [← Ty.meetingsAll_renameVars, Ty.renameVarsAll_eq]
    rfl
  have arity : (sig.renameVars rename).params.length = sig.params.length := List.length_map _
  have bound := @Ty.bindVars_renamed rename injective ∅ ∅ (fun _ => rfl)
    (meetingsAll sig.params args)
  simp only [accepted, accepted', met, arity]
  obtain ⟨_, _, _, _, ran, ran'⟩ | ⟨_, _, bound, bound', ran, ran', -, related⟩ := bound.cases
  · -- A conflict of the variables is one of the renamed variables, and no call is accepted.
    simp [ran, ran']
  · have refined := refine_renamed injective related sig expected
    have admits := admits_renamed_iff refined rooted args
    refine ⟨⟨?_, ?_⟩, ?_⟩
    · rintro ⟨_, count, found, held, admitted, -⟩
      cases ran'.symm.trans held
      exact ⟨_, count, bound, ran, admits.mp admitted, rfl⟩
    · rintro ⟨_, count, found, held, admitted, -⟩
      cases ran.symm.trans held
      exact ⟨_, count, bound', ran', admits.mpr admitted, rfl⟩
    · rintro _ _ ⟨-, found, held, -, rfl⟩ ⟨-, found', held', -, rfl⟩
      cases ran.symm.trans held
      cases ran'.symm.trans held'
      exact refined

/-- The type parameters trade names, and the arguments mention variables of both names. -/
theorem solve_renamed_swapped :
    let swap (name : String) : String :=
      if name = "T" then "U" else if name = "U" then "T" else name
    let sig : Signature := {
      name := "both", params := [.var "T" none, .ref (.var "U" none)], result := .var "T" none
      typeParams := [{ name := "T" }, { name := "U", constraint := some "Numeric" }] }
    let args : List Ty := [.var "U" none, .ref (.array (.var "T" none))]
    let original := ((solve sig args "both" none none).run []).1
    let renamed := ((solve (sig.renameVars swap) args "both" none none).run []).1
    Function.Injective swap ∧ sig.isGeneric = true ∧
      (∀ param ∈ sig.params, param.isRooted = true) ∧
      ∃ inst inst', original = .ok inst ∧ renamed = .ok inst' ∧
        inst'.bindings.get? "U" = some (.var "U" none) ∧
        inst'.bindings.get? "T" = some (.array (.var "T" none)) := by
  intro swap sig args original renamed
  have injective : Function.Injective swap := by
    intro a b same
    simp only [swap] at same
    grind
  have rooted : ∀ param ∈ sig.params, param.isRooted = true := by
    simp [sig, Ty.isRooted]
  have same := @solve_renamed swap injective sig rfl rooted args "both" none none []
  let bindings : Bindings := Dict.ofList [("T", .var "U" none), ("U", .array (.var "T" none))]
  have constraints : ∀ param ∈ sig.typeParams, param.MetUnder bindings := by
    simp only [sig, TypeParam.MetUnder, List.forall_mem_cons]
    refine ⟨by simp, ?_, by simp⟩
    rintro _ _ ⟨⟩ ⟨⟩
    rfl
  have usable : ∀ pair ∈ args.zip sig.params,
      pair.1.usableAs (pair.2.subst bindings) = true := by
    simp only [args, sig, List.zip_cons_cons, List.forall_mem_cons]
    exact ⟨Ty.usableAs_of_isVar rfl, Ty.usableAs_of_normalName rfl, by simp⟩
  have admits : Admits sig args bindings := ⟨constraints, usable⟩
  have accepted : original = .ok (under sig bindings) :=
    (accepts_solve rfl args "both" none none).fst_eq_ok_iff.mpr ⟨rfl, bindings, rfl, admits, rfl⟩
  obtain ⟨inst', accepted'⟩ := same.1.mpr ⟨_, accepted⟩
  have bound := same.2 _ inst' accepted accepted'
  exact ⟨injective, rfl, rooted, _, inst', accepted, accepted', bound "T", bound "U"⟩

end Instantiation

end ModuleTyping
