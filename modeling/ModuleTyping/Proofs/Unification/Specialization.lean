import Mathlib.Data.List.Nodup
import ModuleTyping.Proofs.SymbolTable.Exchange
import ModuleTyping.Proofs.Ty.Sameness
import ModuleTyping.Proofs.Unification.Soft

/-!
# Constructors as patterns read them

A pattern for values of an applied sum uses the constructor's signature with the type
arguments put in for the type parameters. They are found by fitting the scrutinee to the
constructor's result, which is the sum applied to its own parameters. Each parameter is a
variable that is met once, so it is bound to the argument in its place whatever that is, and
fitting does not fail on the way (`fitAll_toVar`).

The arguments are put in all at once: variables in them that are named like parameters of the
sum are not looked at again.
-/

namespace ModuleTyping

/-- Each type parameter bound to the type argument in its place. -/
def TypeParam.boundTo (params : List TypeParam) (args : List Ty) : Bindings :=
  Dict.ofList ((params.map TypeParam.name).zip args)

namespace TypeParam

variable {params : List TypeParam} {args : List Ty}

theorem get?_boundTo (distinct : (params.map TypeParam.name).Nodup)
    (lengths : args.length = params.length) {pair : TypeParam × Ty}
    (member : pair ∈ params.zip args) : (boundTo params args).get? pair.1.name = some pair.2 := by
  have names : (((params.map TypeParam.name).zip args).map Prod.fst).Nodup := by
    rwa [List.map_fst_zip (by simp [lengths])]
  have named : (pair.1.name, pair.2) ∈ (params.map TypeParam.name).zip args := by
    rw [List.zip_map_left]
    exact List.mem_map.mpr ⟨pair, member, rfl⟩
  exact Dict.get?_ofList_of_mem names named

theorem size_boundTo_ne_zero (generic : params ≠ []) (lengths : args.length = params.length)
    (distinct : (params.map TypeParam.name).Nodup) : (boundTo params args).size ≠ 0 := by
  intro none_bound
  cases params with
  | nil => exact generic rfl
  | cons param params =>
      cases args with
      | nil => cases lengths
      | cons arg args =>
          have held := Dict.mem_entries_iff.mpr (get?_boundTo distinct lengths (.head _))
          rw [List.length_eq_zero_iff.mp none_bound] at held
          cases held

end TypeParam

namespace Ty

/-- Distinct variables that are not bound yet are bound to the types in their places. -/
theorem fitAll_toVar {params : List TypeParam} (distinct : (params.map TypeParam.name).Nodup)
    (args : List Ty) {bindings : Bindings}
    (unbound : ∀ param ∈ params, bindings.get? param.name = none) :
    fitAll bindings (params.map TypeParam.toVar) args =
      (true, ((params.map TypeParam.name).zip args).foldl
        (fun bindings pair => bindings.insert pair.1 pair.2) bindings) := by
  induction params generalizing args bindings with
  | nil => rfl
  | cons param params ih =>
      cases args with
      | nil => rfl
      | cons arg args =>
          obtain ⟨new, distinct⟩ := List.nodup_cons.mp distinct
          obtain ⟨first, rest⟩ := List.forall_mem_cons.mp unbound
          have met : param.toVar.fit bindings arg = (true, bindings.insert param.name arg) := by
            rw [TypeParam.toVar, fit, first]
          rw [List.map_cons, fitAll, met]
          refine ih distinct args fun later member => ?_
          have apart : later.name ≠ param.name :=
            fun same => new (same ▸ List.mem_map_of_mem member)
          rw [Dict.get?_insert, if_neg apart, rest later member]

/-- A variable that is bound to a type stands for the same type, also if that is the variable
itself with another constraint. -/
theorem same_subst_toVar {bindings : Bindings} {param : TypeParam} {arg : Ty}
    (held : bindings.get? param.name = some arg) :
    (param.toVar.subst bindings).same arg = true := by
  rw [TypeParam.toVar, subst_var, held]
  dsimp only
  split
  · next itself => exact same_symm itself
  · exact same_refl arg

theorem sameAll_subst_toVar {bindings : Bindings} {params : List TypeParam} {args : List Ty}
    (lengths : args.length = params.length)
    (held : ∀ pair ∈ params.zip args, bindings.get? pair.1.name = some pair.2) :
    sameAll ((params.map TypeParam.toVar).map (·.subst bindings)) args = true := by
  induction params generalizing args with
  | nil =>
      rw [List.length_eq_zero_iff.mp lengths]
      rfl
  | cons param params ih =>
      cases args with
      | nil => cases lengths
      | cons arg args =>
          obtain ⟨first, rest⟩ := List.forall_mem_cons.mp held
          rw [List.map_cons, List.map_cons, sameAll, same_subst_toVar first,
            ih (Nat.succ.inj lengths) rest]
          rfl

end Ty

namespace TypeInfo

variable {info : TypeInfo}

theorem applied_of_generic (generic : info.typeParams ≠ []) :
    info.applied = .generic info.ty (info.typeParams.map TypeParam.toVar) :=
  if_neg (by simpa using generic)

/-- An application of a type of that name to as many arguments fits a declared type with its
own parameters, and binds each of them to the argument in its place. -/
theorem fit_applied (generic : info.typeParams ≠ [])
    (distinct : (info.typeParams.map TypeParam.name).Nodup) {base : Ty} {args : List Ty}
    (named : base.name = info.ty.name) (lengths : args.length = info.typeParams.length) :
    info.applied.fit ∅ (.generic base args) = (true, TypeParam.boundTo info.typeParams args) := by
  rw [applied_of_generic generic, Ty.fit, if_pos ⟨named.symm, by rw [List.length_map, lengths]⟩]
  exact Ty.fitAll_toVar distinct args fun _ _ => rfl

/-- Nothing else fits it. -/
theorem not_fit_applied (generic : info.typeParams ≠ []) {scrutinee : Ty}
    (other : ∀ base args, scrutinee = .generic base args → base.name = info.ty.name →
      args.length ≠ info.typeParams.length) : (info.applied.fit ∅ scrutinee).1 = false := by
  rw [applied_of_generic generic]
  cases scrutinee with
  | generic base args =>
      have apart : ¬(info.ty.name = base.name ∧
          (info.typeParams.map TypeParam.toVar).length = args.length) := by
        rintro ⟨named, lengths⟩
        exact other base args rfl named.symm (by simpa using lengths.symm)
      rw [Ty.fit, if_neg apart]
  | _ => rfl

/-- With the arguments put in, the declared type with its own parameters is the application. -/
theorem same_subst_applied (generic : info.typeParams ≠ [])
    (distinct : (info.typeParams.map TypeParam.name).Nodup) {base : Ty} {args : List Ty}
    (named : base.name = info.ty.name) (lengths : args.length = info.typeParams.length) :
    (info.applied.subst (TypeParam.boundTo info.typeParams args)).same (.generic base args) =
      true := by
  rw [applied_of_generic generic, Ty.subst_generic, Ty.same, named, beq_self_eq_true,
    Ty.sameAll_subst_toVar lengths fun _ => TypeParam.get?_boundTo distinct lengths]
  rfl

end TypeInfo

namespace Signature

variable {sig : Signature} {scrutinee : Ty}

theorem specialize_of_fit {bindings : Bindings}
    (fitted : sig.result.fit ∅ scrutinee = (true, bindings)) (bound : bindings.size ≠ 0) :
    sig.specialize scrutinee = { sig with
      params := sig.params.map (·.subst bindings)
      result := sig.result.subst bindings } := by
  have same : sig.bindingsFor scrutinee = bindings := by rw [bindingsFor, fitted]
  rw [specialize, same]
  exact if_neg bound

/-- Bindings that were made before fitting failed are not put in. -/
theorem specialize_of_not_fit (failed : (sig.result.fit ∅ scrutinee).1 = false) :
    sig.specialize scrutinee = sig := by
  have none_bound : sig.bindingsFor scrutinee = ∅ := by
    unfold bindingsFor
    generalize sig.result.fit ∅ scrutinee = run at failed
    obtain ⟨fits, bindings⟩ := run
    cases failed
    rfl
  rw [specialize, none_bound]
  rfl

end Signature

namespace ConstructorTable

variable {info : TypeInfo} {variants : List (String × List Ty)}

theorem declared?_of_mem (distinct : (variants.map Prod.fst).Nodup) {variant : String × List Ty}
    (member : variant ∈ variants) : declared? info variants variant.1 =
      some { sumName := info.name, signature := signatureOf info variant } := by
  rw [declared?]
  cases found : variants.reverse.find? (·.1 == variant.1) with
  | none => simpa using List.find?_eq_none.mp found variant (List.mem_reverse.mpr member)
  | some other =>
      have listed : other ∈ variants := List.mem_reverse.mp (List.mem_of_find?_eq_some found)
      have named : other.1 = variant.1 := by simpa using List.find?_some found
      rw [List.inj_on_of_nodup_map distinct listed member named, Option.map_some]

/-- Right after a generic sum is registered, the constructor of a variant is read for an
application of the sum with the type arguments put in for the type parameters, all at once, and
results in that application. For any other type it is read as it was declared. -/
theorem constructor_read_without_capture {S : String} (declared : info.ty = .sum S variants)
    (distinct : (variants.map Prod.fst).Nodup) (generic : info.typeParams ≠ [])
    (distinctParams : (info.typeParams.map TypeParam.name).Nodup)
    (constructors : ConstructorTable) (functions : FunctionTable) (reg : Registration)
    {variant : String × List Ty} (member : variant ∈ variants) :
    let signatureFor? := (constructors.registerSum functions info reg).2.1.signatureFor? variant.1
    (∀ base args, base.name = S → args.length = info.typeParams.length →
      ∃ result, result.same (.generic base args) = true ∧
        signatureFor? (.generic base args) = some { signatureOf info variant with
          params := variant.2.map (·.subst (TypeParam.boundTo info.typeParams args))
          result }) ∧
      ∀ scrutinee, (∀ base args, scrutinee = .generic base args → base.name = S →
        args.length ≠ info.typeParams.length) →
          signatureFor? scrutinee = some (signatureOf info variant) := by
  intro signatureFor?
  have isSum : info.ty.variants? = some variants := by rw [declared]; rfl
  have named : info.ty.name = S := by rw [declared, Ty.name]
  have read (scrutinee : Ty) :
      signatureFor? scrutinee = some ((signatureOf info variant).specialize scrutinee) := by
    simp only [signatureFor?, ConstructorTable.signatureFor?,
      get?_registerSum isSum, declared?_of_mem distinct member, Option.some_or, Option.map_some]
  rw [← named]
  refine ⟨fun base args sameName lengths => ?_, fun scrutinee other => ?_⟩
  · have fitted : (signatureOf info variant).result.fit ∅ (.generic base args) =
        (true, TypeParam.boundTo info.typeParams args) :=
      TypeInfo.fit_applied generic distinctParams sameName lengths
    refine ⟨_, TypeInfo.same_subst_applied generic distinctParams sameName lengths, ?_⟩
    rw [read, Signature.specialize_of_fit fitted
      (TypeParam.size_boundTo_ne_zero generic lengths distinctParams)]
    rfl
  · have failed : ((signatureOf info variant).result.fit ∅ scrutinee).1 = false :=
      TypeInfo.not_fit_applied generic other
    rw [read, Signature.specialize_of_not_fit failed]

/-- The scrutinee's variables are named like the parameters of the sum, the other way round. -/
theorem constructor_read_without_capture_swapped :
    let info : TypeInfo := {
      name := "Pair"
      ty := .sum "Pair" [("Both", [.var "A" none, .array (.var "B" none)]), ("Neither", [])]
      typeParams := [{ name := "A" }, { name := "B" }] }
    let scrutinee : Ty := .generic (.abstract "Pair") [.var "B" none, .array (.var "A" none)]
    (info.typeParams.map TypeParam.name).Nodup ∧
      ∃ result, result.same scrutinee = true ∧
        ((∅ : ConstructorTable).registerSum ∅ info {}).2.1.signatureFor? "Both" scrutinee =
          some {
            name := "Both"
            params := [.var "B" none, .array (.array (.var "A" none))]
            result
            typeParams := info.typeParams } := by
  intro info scrutinee
  have distinct : (info.typeParams.map TypeParam.name).Nodup := by decide
  have declared : info.ty =
      .sum "Pair" [("Both", [.var "A" none, .array (.var "B" none)]), ("Neither", [])] := rfl
  exact ⟨distinct, (constructor_read_without_capture declared (by decide) (by simp [info]) distinct
    ∅ ∅ {} (.head _)).1 (.abstract "Pair") [.var "B" none, .array (.var "A" none)] rfl rfl⟩

end ConstructorTable

end ModuleTyping
