import ModuleTyping.Proofs.Outcomes
import ModuleTyping.Proofs.Ty.Shapes
import ModuleTyping.Summary.Load

/-!
# Loading summaries

What a declaration of a summary stands for depends on the types that are known when it is
loaded (`TypeDecl.infoIn?`, `SumDecl.infoIn`, `Function.signatureIn`). Loading it works that
out, which changes nothing, and then registers it; so loading ends early at a text that is
no type and for no other reason.
-/

namespace ModuleTyping

theorem error_of_bind {ε α β : Type} {x : Except ε α} {f : α → Except ε β} {e : ε}
    (failed : x >>= f = .error e) : x = .error e ∨ ∃ a, x = .ok a ∧ f a = .error e := by
  cases x with
  | error e' =>
      cases failed
      exact .inl rfl
  | ok a => exact .inr ⟨a, rfl, failed⟩

theorem error_of_mapM {ε α β : Type} {f : α → Except ε β} {l : List α} {e : ε}
    (failed : l.mapM f = .error e) : ∃ a ∈ l, f a = .error e := by
  induction l with
  | nil => cases failed
  | cons a l ih =>
      rw [List.mapM_cons] at failed
      rcases error_of_bind failed with first | ⟨b, -, failed⟩
      · exact ⟨a, List.mem_cons_self, first⟩
      · rcases error_of_bind failed with rest | ⟨bs, -, failed⟩
        · obtain ⟨a', member, failed⟩ := ih rest
          exact ⟨a', List.mem_cons_of_mem a member, failed⟩
        · cases failed

/-- Reading the text of a type fails for no reason but its form. -/
theorem Ty.malformed_of_read {typeParams : List String} {text : List Char} {cause : Cause}
    (failed : read typeParams text = .error cause) : ∃ text, cause = .malformedType text := by
  induction text using TypeText.induction_on_pieces with
  | whole text piece =>
    -- The fault is that of the first piece that cannot be read.
    have around {wrap : Ty → Ty} {text' : List Char}
        (member : text' ∈ (TypeText.ofText text).pieces)
        (failed : (do return wrap (← read typeParams text')) = Except.error cause) :
        ∃ text, cause = .malformedType text := by
      rcases error_of_bind failed with failed | ⟨_, -, failed⟩
      · exact piece _ member failed
      · cases failed
    rw [read_eq] at failed
    generalize TypeText.ofText text = shape at failed piece around
    cases shape with
    | function params result =>
        rcases error_of_bind failed with failed | ⟨_, -, failed⟩
        · obtain ⟨param, member, failed⟩ := error_of_mapM failed
          exact piece _ (List.mem_cons_of_mem _ member) failed
        · exact around List.mem_cons_self failed
    | enclosed inside => exact piece _ List.mem_cons_self failed
    | array _ | ref _ | mutRef _ => exact around List.mem_cons_self failed
    | application base args =>
        rcases error_of_bind failed with failed | ⟨_, -, failed⟩
        · obtain ⟨arg, member, failed⟩ := error_of_mapM failed
          exact piece _ member failed
        · cases failed
    | name name =>
        cases named : ofName? typeParams name with
        | some ty =>
            simp only [named] at failed
            cases failed
        | none =>
            simp only [named] at failed
            cases failed
            exact ⟨_, rfl⟩
    | malformed =>
        cases failed
        exact ⟨_, rfl⟩

/-- The environment with a declared sum and its constructors. -/
def Environment.withSum (env : Environment) (info : TypeInfo) (reg : Registration) : Environment :=
  { env with
    types := env.types.register info reg
    constructors := (env.constructors.registerSum env.functions info reg).2.1
    functions := (env.constructors.registerSum env.functions info reg).2.2 }

/-- The signature of a lowered function. -/
def Typed.Function.signature (decl : Typed.Function) : Signature where
  name := decl.name
  params := decl.params.map Typed.Param.ty
  result := decl.result
  typeParams := decl.typeParams

namespace Summary

/-! ### What declarations stand for -/

/-- The type that a text stands for among known types. -/
def typeIn (types : TypeTable) (typeParams : List String) (text : String) : Except Cause Ty :=
  (Ty.read typeParams text.toList).map types.resolveNames

/-- The declared type, unless it is of a kind that is passed over. -/
def TypeDecl.infoIn? (types : TypeTable) (decl : TypeDecl) : Except Cause (Option TypeInfo) :=
  let info (ty : Ty) : TypeInfo :=
    { name := decl.name, ty, typeParams := openParams decl.typeParams }
  match decl.kind with
  | "record" => do
    let fields ← decl.fields.mapM fun field => do
      return (field.name, ← typeIn types decl.typeParams field.ty)
    return some (info (.record decl.name fields))
  | "opaque" => return some (info (.abstract decl.name))
  | _ => return none

/-- The declared sum. -/
def SumDecl.infoIn (types : TypeTable) (decl : SumDecl) : Except Cause TypeInfo := do
  let variants ← decl.variants.mapM fun variant => do
    return (variant.name, ← variant.fields.mapM (typeIn types decl.typeParams))
  return {
    name := decl.name
    ty := .sum decl.name variants
    typeParams := openParams decl.typeParams }

/-- The signature of a declared function. -/
def Function.signatureIn (types : TypeTable) (decl : Function) : Except Cause Signature := do
  let params ← decl.params.mapM fun param => typeIn types decl.typeParams param.ty
  let result ← typeIn types decl.typeParams decl.result
  return {
    name := decl.name
    params
    result
    typeParams := openParams decl.typeParams }

theorem Function.name_of_signatureIn {types : TypeTable} {decl : Function} {sig : Signature}
    (given : decl.signatureIn types = .ok sig) : sig.name = decl.name := by
  obtain ⟨params, -, given⟩ := bind_eq_ok_iff.mp given
  obtain ⟨result, -, given⟩ := bind_eq_ok_iff.mp given
  cases given
  rfl

/-- The constructors of a declared sum are called as the summary says, in its order. -/
theorem SumDecl.variants_of_infoIn {types : TypeTable} {decl : SumDecl} {info : TypeInfo}
    (given : decl.infoIn types = .ok info) :
    ∃ variants, info.ty.variants? = some variants ∧
      variants.map Prod.fst = decl.variants.map Variant.name := by
  obtain ⟨variants, read, built⟩ := bind_eq_ok_iff.mp given
  clear given
  cases built
  refine ⟨variants, rfl, ?_⟩
  rw [mapM_eq_ok_iff] at read
  generalize decl.variants = declared at read ⊢
  induction read with
  | nil => rfl
  | cons first rest ih =>
      obtain ⟨tys, -, first⟩ := bind_eq_ok_iff.mp first
      cases first
      rw [List.map_cons, List.map_cons, ih]

/-! ### Steps -/

/-- Working through a list without changing the state. -/
theorem mapM_steady {ε σ α β : Type} {f : α → Stateful ε σ β} {r : α → Except ε β} {s : σ}
    (each : ∀ a, f a s = (r a, s)) (l : List α) : l.mapM f s = (l.mapM r, s) := by
  induction l with
  | nil => rfl
  | cons a l ih =>
      rw [List.mapM_cons, List.mapM_cons, Stateful.bind_apply, each]
      cases r a with
      | error e => rfl
      | ok b =>
          dsimp only
          rw [Stateful.bind_apply, ih]
          cases l.mapM r <;> rfl

theorem loadTy_apply (typeParams : List String) (text : String) (env : Environment) :
    loadTy typeParams text env = (typeIn env.types typeParams text, env) := by
  unfold loadTy typeIn
  cases Ty.read typeParams text.toList <;> rfl

theorem loadType_apply (reg : Registration) (decl : TypeDecl) (env : Environment) :
    loadType reg decl env =
      match decl.infoIn? env.types with
      | .ok (some info) => (.ok (), { env with types := env.types.register info reg })
      | .ok none => (.ok (), env)
      | .error cause => (.error cause, env) := by
  have field (field : Param) : (do
      return (field.name, ← loadTy decl.typeParams field.ty) : Load (String × Ty)) env =
        ((do return (field.name, ← typeIn env.types decl.typeParams field.ty)), env) := by
    rw [Stateful.bind_apply, loadTy_apply]
    cases typeIn env.types decl.typeParams field.ty <;> rfl
  unfold loadType TypeDecl.infoIn?
  by_cases isRecord : decl.kind = "record"
  · simp only [isRecord]
    rw [Stateful.bind_apply, mapM_steady field]
    cases decl.fields.mapM fun field => do
      return (field.name, ← typeIn env.types decl.typeParams field.ty) <;> rfl
  · by_cases isOpaque : decl.kind = "opaque"
    · simp only [isOpaque]
      rfl
    · simp only
      rfl

theorem loadSum_apply (reg : Registration) {decl : SumDecl} (isSum : decl.kind = "sum")
    (env : Environment) :
    loadSum reg decl env =
      match decl.infoIn env.types with
      | .ok info => (.ok (), env.withSum info reg)
      | .error cause => (.error cause, env) := by
  have variant (variant : Variant) : (do
      return (variant.name, ← variant.fields.mapM (loadTy decl.typeParams)) :
        Load (String × List Ty)) env =
      ((do return (variant.name, ← variant.fields.mapM (typeIn env.types decl.typeParams))),
        env) := by
    rw [Stateful.bind_apply, mapM_steady fun text => loadTy_apply decl.typeParams text env]
    cases variant.fields.mapM (typeIn env.types decl.typeParams) <;> rfl
  unfold loadSum SumDecl.infoIn
  rw [if_pos isSum, Stateful.bind_apply, mapM_steady variant]
  cases decl.variants.mapM fun variant => do
    return (variant.name, ← variant.fields.mapM (typeIn env.types decl.typeParams)) <;> rfl

theorem loadFunction_apply (reg : Registration) (decl : Function) (env : Environment) :
    loadFunction reg decl env =
      match decl.signatureIn env.types with
      | .ok sig => (.ok (), { env with functions := env.functions.register sig reg })
      | .error cause => (.error cause, env) := by
  have params := mapM_steady
    (fun param : Param => loadTy_apply decl.typeParams param.ty env) decl.params
  unfold loadFunction Function.signatureIn
  rw [Stateful.bind_apply, params]
  cases decl.params.mapM fun param => typeIn env.types decl.typeParams param.ty with
  | error cause => rfl
  | ok params =>
      dsimp only
      rw [Stateful.bind_apply, loadTy_apply]
      cases typeIn env.types decl.typeParams decl.result <;> rfl

open Stateful (Fails)

/-- The cause is a text that is no type. -/
def Malformed (cause : Cause) : Prop :=
  ∃ text, cause = .malformedType text

theorem fails_loadTy (typeParams : List String) (text : String) :
    Fails Malformed (loadTy typeParams text) := by
  unfold loadTy
  split
  · exact .get_bind fun _ => .pure _
  · next failed => exact .throws (Ty.malformed_of_read failed)

theorem fails_loadType (reg : Registration) (decl : TypeDecl) :
    Fails Malformed (loadType reg decl) := by
  unfold loadType
  split
  · refine Fails.bind (.mapM (fun field => ?_) _) fun fields => .modifies _
    exact (fails_loadTy _ _).bind fun _ => .pure _
  · exact .modifies _
  · exact .pure ()

theorem fails_loadSum (reg : Registration) (decl : SumDecl) :
    Fails Malformed (loadSum reg decl) := by
  unfold loadSum
  split
  · refine Fails.bind (.mapM (fun variant => ?_) _) fun variants => .modifies _
    exact (Fails.mapM (fails_loadTy _) _).bind fun _ => .pure _
  · exact .pure ()

theorem fails_loadFunction (reg : Registration) (decl : Function) :
    Fails Malformed (loadFunction reg decl) := by
  unfold loadFunction
  refine (Fails.mapM (fun param => fails_loadTy _ _) _).bind fun params => ?_
  exact (fails_loadTy _ _).bind fun result => .modifies _

/-- Loading a summary ends early only at a text that is no type. -/
theorem fails_load (summary : Summary) : Fails Malformed summary.load := by
  unfold load
  refine (Fails.forM (fails_loadType _) _).bind fun _ => ?_
  refine (Fails.forM (fails_loadSum _) _).bind fun _ => ?_
  exact .forM (fails_loadFunction _) _

end Summary

end ModuleTyping
