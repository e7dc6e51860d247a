import ModuleTyping.Proofs.Summary.Loading
import ModuleTyping.Proofs.SymbolTable.Holdings
import ModuleTyping.Proofs.Ty.Legible

/-!
# What a summary carries over

The summary of a module says what it exports by texts. Loading reads the texts and puts
declared types in the place of names; where the types of the module are legible, that
succeeds, and it does not change how anything is written, whatever has been loaded before:
every known type is written by the name it is known by (`TypeTable.Faithful`).
-/

namespace ModuleTyping

/-! ### Names that stand for types -/

namespace TypeTable

variable {types : TypeTable}

/-- Every known type is written by the name it is known by. -/
structure Faithful (types : TypeTable) : Prop where
  consistent : types.table.Consistent
  unaliased : ∀ name, types.table.aliases.get? name = none
  named : ∀ {name entry}, types.table.entries.get? name = some entry →
    entry.value.ty.declaredName? = some name

namespace Faithful

theorem declaredName? (faithful : types.Faithful) {name : String} {ty : Ty}
    (known : types.lookup? name = some ty) : ty.declaredName? = some name := by
  unfold lookup? info? entry? at known
  obtain ⟨info, described, rfl⟩ := Option.map_eq_some_iff.mp known
  obtain ⟨entry, found, rfl⟩ := Option.map_eq_some_iff.mp described
  obtain ⟨canonical, resolved, held⟩ := Option.bind_eq_some_iff.mp found
  unfold SymbolTable.canonicalName? at resolved
  split at resolved
  · obtain rfl := Option.some.inj resolved
    exact faithful.named held
  · rw [faithful.unaliased] at resolved
    cases resolved

theorem register (faithful : types.Faithful) {info : TypeInfo}
    (named : info.ty.declaredName? = some info.name) (reg : Registration) :
    (types.register info reg).Faithful where
  consistent := faithful.consistent.edited (.register info.name info reg)
  unaliased name := by
    rw [TypeTable.register, SymbolTable.get?_aliases_register]
    split
    · rfl
    · exact faithful.unaliased name
  named {name entry} held := by
    rw [TypeTable.register, faithful.consistent.get?_entries_register] at held
    split at held
    · next same =>
      obtain rfl := Option.some.inj held
      have value (old : Option (Entry TypeInfo)) :
          (Entry.registered old info.name info reg).value = info := by
        cases old <;> rfl
      rw [same, value, named]
    · obtain ⟨old, known, rfl⟩ := Option.map_eq_some_iff.mp held
      have named := faithful.named known
      exact named

theorem primitives : TypeTable.primitives.Faithful := by
  have empty : Faithful ⟨∅⟩ := ⟨.empty, fun _ => rfl, nofun⟩
  refine List.foldlRecOn (motive := fun table => Faithful ⟨table⟩) primitiveNames _ empty ?_
  intro table faithful name _
  exact @Faithful.register ⟨table⟩ faithful { name, ty := .primitive name } rfl {}

end Faithful

open Ty (WrittenAs)

/-- The two types are written the same way, also where only their names are written. -/
structure Respelled (ty other : Ty) : Prop extends WrittenAs ty other where
  name : ty.name = other.name

theorem Respelled.refl (ty : Ty) : Respelled ty ty :=
  ⟨⟨rfl, rfl⟩, rfl⟩

mutual

/-- Putting declared types in the place of names does not change how a type is written. -/
theorem respelled_resolveNames (faithful : types.Faithful) :
    (ty : Ty) → Respelled (types.resolveNames ty) ty
  | .primitive name => by
      rw [resolveNames]
      split
      · exact .refl _
      · cases known : types.lookup? name with
        | none => exact .refl _
        | some ty =>
            obtain ⟨text, named, plain⟩ := Ty.written_by_name (faithful.declaredName? known)
            exact ⟨⟨text.trans (by rw [Ty.text]), plain⟩, named⟩
  | .array element => by
      have element := respelled_resolveNames faithful element
      rw [resolveNames]
      exact ⟨⟨by rw [Ty.text, Ty.text, element.text, element.isFunction], rfl⟩, rfl⟩
  | .generic base args => by
      have base := respelled_resolveNames faithful base
      have args := Ty.textAll_congr (forall₂_resolveAllNames faithful args)
      rw [resolveNames]
      exact ⟨⟨by rw [Ty.text, Ty.text, base.name, args], rfl⟩, base.name⟩
  | .function params result => by
      have params := Ty.textAll_congr (forall₂_resolveAllNames faithful params)
      have result := respelled_resolveNames faithful result
      rw [resolveNames]
      exact ⟨⟨by rw [Ty.text, Ty.text, params, result.text], rfl⟩, rfl⟩
  | .ref referent => by
      have referent := respelled_resolveNames faithful referent
      rw [resolveNames]
      exact ⟨⟨by rw [Ty.text, Ty.text, referent.text], rfl⟩, rfl⟩
  | .mutRef referent => by
      have referent := respelled_resolveNames faithful referent
      rw [resolveNames]
      exact ⟨⟨by rw [Ty.text, Ty.text, referent.text], rfl⟩, rfl⟩
  | .map key value => by
      have key := respelled_resolveNames faithful key
      have value := respelled_resolveNames faithful value
      rw [resolveNames]
      exact ⟨⟨by rw [Ty.text, Ty.text, key.text, value.text], rfl⟩, rfl⟩
  | .var name constraint => by
      rw [resolveNames]
      exact .refl _
  | .record name fields => by
      rw [resolveNames]
      exact .refl _
  | .sum name variants => by
      rw [resolveNames]
      exact .refl _
  | .abstract name => by
      rw [resolveNames]
      exact .refl _
  | .unit => by
      rw [resolveNames]
      exact .refl _

theorem forall₂_resolveAllNames (faithful : types.Faithful) :
    (tys : List Ty) → List.Forall₂ (fun ty other => ty.text = other.text)
      (types.resolveAllNames tys) tys
  | [] => by
      rw [resolveAllNames]
      exact .nil
  | ty :: tys => by
      rw [resolveAllNames]
      exact .cons (respelled_resolveNames faithful ty).text (forall₂_resolveAllNames faithful tys)

end

end TypeTable

/-! ### Signatures -/

/-- The types of the parameters and the result of a function. -/
def Typed.Function.types (decl : Typed.Function) : List Ty :=
  decl.params.map Typed.Param.ty ++ [decl.result]

/-- The types of the fields of a record, or of the constructors of a sum. -/
def Typed.TypeDecl.fieldTypes (decl : Typed.TypeDecl) : List Ty :=
  match decl.ty with
  | .record _ fields => fields.map Prod.snd
  | .sum _ variants => variants.flatMap Prod.snd
  | _ => []

/-- The constructors of a declared sum, and the types of their fields. -/
def Typed.TypeDecl.variants? (decl : Typed.TypeDecl) : Option (List (String × List Ty)) :=
  match decl.ty with
  | .sum _ variants => some variants
  | _ => none

/-- The signatures of the constructors of a declared sum. -/
def Typed.TypeDecl.constructors (decl : Typed.TypeDecl) : List Signature :=
  (decl.variants?.getD []).map (ConstructorTable.signatureOf decl.info)

/-- The name of a declared sum, and those of its constructors. -/
def Typed.TypeDecl.sums (decl : Typed.TypeDecl) : List (String × List String) :=
  decl.variants?.toList.map fun variants => (decl.name, variants.map Prod.fst)

section

variable {decl : Typed.TypeDecl} {name : String} {variants : List (String × List Ty)}

theorem Typed.TypeDecl.variants?_of_sum (isSum : decl.ty = .sum name variants) :
    decl.variants? = some variants := by
  rw [variants?, isSum]

theorem Typed.TypeDecl.constructors_of_sum (isSum : decl.ty = .sum name variants) :
    decl.constructors = variants.map (ConstructorTable.signatureOf decl.info) := by
  rw [constructors, variants?_of_sum isSum, Option.getD_some]

theorem Typed.TypeDecl.sums_of_sum (isSum : decl.ty = .sum name variants) :
    decl.sums = [(decl.name, variants.map Prod.fst)] := by
  rw [sums, variants?_of_sum isSum]
  rfl

end

namespace Typed.Module

/-- The functions that a module exports. -/
def exportedFunctions (m : Typed.Module) : List Typed.Function :=
  m.functions.filter (·.exported)

/-- The types that a module exports. -/
def exportedTypes (m : Typed.Module) : List Typed.TypeDecl :=
  m.types.filter (·.exported)

/-- The signatures that a module exports, those of its constructors first. -/
def exportedSignatures (m : Typed.Module) : List Signature :=
  m.exportedTypes.flatMap TypeDecl.constructors ++ m.exportedFunctions.map Function.signature

/-- The types that what a module exports consists of: those of fields, parameters and
results. -/
def exposed (m : Typed.Module) : List Ty :=
  m.exportedTypes.flatMap TypeDecl.fieldTypes ++ m.exportedFunctions.flatMap Function.types

end Typed.Module

/-- The two signatures are written the same way. -/
structure Signature.PrintsAs (sig other : Signature) : Prop where
  name : sig.name = other.name
  text : sig.toTy.text = other.toTy.text
  typeParams : sig.typeParams.map TypeParam.name = other.typeParams.map TypeParam.name

/-- A computation that succeeds on each element of a list succeeds on the list. -/
theorem exists_mapM_ok {ε α β : Type} {f : α → Except ε β} {R : β → α → Prop} {l : List α}
    (each : ∀ a ∈ l, ∃ b, f a = .ok b ∧ R b a) :
    ∃ bs, l.mapM f = .ok bs ∧ List.Forall₂ R bs l := by
  induction l with
  | nil => exact ⟨[], rfl, .nil⟩
  | cons a l ih =>
      obtain ⟨b, first, related⟩ := each a List.mem_cons_self
      obtain ⟨bs, rest, others⟩ := ih fun a member => each a (List.mem_cons_of_mem _ member)
      refine ⟨b :: bs, ?_, .cons related others⟩
      rw [List.mapM_cons, first, rest]
      rfl

namespace Summary

variable {types : TypeTable}

open Ty (WrittenAs)

/-- The text of a legible type stands for a type that is written the same way. -/
theorem exists_typeIn (faithful : types.Faithful) {ty : Ty} (legible : ty.Legible)
    (typeParams : List String) :
    ∃ ty', typeIn types typeParams ty.text = .ok ty' ∧ WrittenAs ty' ty := by
  obtain ⟨read, reads, written⟩ := legible.readsAlike typeParams
  have respelled := TypeTable.respelled_resolveNames faithful read
  refine ⟨types.resolveNames read, ?_, ?_, ?_⟩
  · rw [typeIn, reads]
    rfl
  · rw [respelled.text, written.text]
  · rw [respelled.isFunction, written.isFunction]

theorem exists_typesIn (faithful : types.Faithful) {tys : List Ty}
    (legible : ∀ ty ∈ tys, ty.Legible) (typeParams : List String) :
    ∃ tys', tys.mapM (fun ty => typeIn types typeParams ty.text) = .ok tys' ∧
      Ty.textAll tys' = Ty.textAll tys := by
  obtain ⟨tys', ran, written⟩ := exists_mapM_ok fun ty member =>
    exists_typeIn faithful (legible ty member) typeParams
  exact ⟨tys', ran, Ty.textAll_congr (written.imp fun _ _ => WrittenAs.text)⟩

theorem names_openParams (names : List String) :
    (openParams names).map TypeParam.name = names := by
  rw [openParams, List.map_map]
  exact List.map_id _

/-- The summary of a function stands for a signature that is written as its own. -/
theorem exists_signatureIn (faithful : types.Faithful) {decl : Typed.Function}
    (legible : ∀ ty ∈ decl.types, ty.Legible) :
    ∃ sig, (ofFunction decl).signatureIn types = .ok sig ∧ sig.PrintsAs decl.signature := by
  unfold Typed.Function.types at legible
  obtain ⟨params, readParams, writtenParams⟩ := exists_typesIn faithful
    (fun ty member => legible ty (List.mem_append_left _ member))
    (decl.typeParams.map TypeParam.name)
  obtain ⟨result, readResult, writtenResult⟩ := exists_typeIn faithful
    (legible decl.result (List.mem_append_right _ List.mem_cons_self))
    (decl.typeParams.map TypeParam.name)
  let known : Signature := {
    name := decl.name
    params
    result
    typeParams := openParams (decl.typeParams.map TypeParam.name) }
  refine ⟨known, ?_, rfl, ?_, names_openParams _⟩
  · refine bind_eq_ok_iff.mpr ⟨params, ?_, bind_eq_ok_iff.mpr ⟨result, readResult, rfl⟩⟩
    rw [ofFunction, List.mapM_map]
    rw [List.mapM_map] at readParams
    exact readParams
  · rw [Signature.toTy, Signature.toTy, Ty.text, Ty.text, writtenResult.text]
    exact congrArg (fun params => "(" ++ params ++ ") -> " ++ _) writtenParams

/-- A sum applied to its own parameters is written by its name and theirs. -/
theorem text_applied {info known : TypeInfo} {name : String}
    {variants known' : List (String × List Ty)} (isSum : info.ty = .sum name variants)
    (isKnown : known.ty = .sum name known')
    (typeParams : known.typeParams.map TypeParam.name = info.typeParams.map TypeParam.name) :
    known.applied.text = info.applied.text := by
  have vars : List.Forall₂ (fun ty other => ty.text = other.text)
      (known.typeParams.map TypeParam.toVar) (info.typeParams.map TypeParam.toVar) := by
    rw [List.forall₂_map_left_iff, List.forall₂_map_right_iff]
    refine (map_eq_map_iff.mp typeParams).imp fun param other same => ?_
    rw [TypeParam.toVar, TypeParam.toVar, Ty.text, Ty.text, same]
  have empty : known.typeParams.isEmpty = info.typeParams.isEmpty := by
    rw [← List.isEmpty_map (f := TypeParam.name), typeParams, List.isEmpty_map]
  unfold TypeInfo.applied
  rw [isSum, isKnown, empty]
  split
  · rw [Ty.text, Ty.text]
  · rw [Ty.text, Ty.text, Ty.textAll_congr vars, Ty.name, Ty.name]

theorem Variant.name_ofDeclared (variant : String × List Ty) :
    (ofDeclared variant).name = variant.1 := by
  unfold ofDeclared
  split <;> rfl

theorem Variant.fields_ofDeclared (variant : String × List Ty) :
    (ofDeclared variant).fields = variant.2.map Ty.text := by
  unfold ofDeclared
  split <;> rfl

/-- A sum as its summary gives it. -/
def ofVariants (decl : Typed.TypeDecl) (variants : List (String × List Ty)) : SumDecl where
  name := decl.name
  variants := variants.map Variant.ofDeclared
  typeParams := decl.typeParams.map TypeParam.name

theorem ofSum?_eq (decl : Typed.TypeDecl) :
    ofSum? decl = decl.variants?.map (ofVariants decl) := by
  unfold ofSum? Typed.TypeDecl.variants?
  cases decl.ty <;> rfl

/-- The summary of a sum stands for a sum whose constructors are written as its own. -/
theorem exists_infoIn (faithful : types.Faithful) {decl : Typed.TypeDecl}
    {variants : List (String × List Ty)} (isSum : decl.ty = .sum decl.name variants)
    (legible : ∀ variant ∈ variants, ∀ ty ∈ variant.2, ty.Legible) :
    ∃ info variants', (ofVariants decl variants).infoIn types = .ok info ∧
      info.name = decl.name ∧ info.ty = .sum decl.name variants' ∧
      variants'.map Prod.fst = variants.map Prod.fst ∧
      List.Forall₂ Signature.PrintsAs (variants'.map (ConstructorTable.signatureOf info))
        (variants.map (ConstructorTable.signatureOf decl.info)) := by
  let typeParams := decl.typeParams.map TypeParam.name
  obtain ⟨variants', ran, related⟩ : ∃ variants', (variants.mapM fun variant => do
      return ((Variant.ofDeclared variant).name,
        ← (Variant.ofDeclared variant).fields.mapM (typeIn types typeParams))) = .ok variants' ∧
      List.Forall₂ (fun known variant => known.1 = variant.1 ∧
        Ty.textAll known.2 = Ty.textAll variant.2) variants' variants := by
    refine exists_mapM_ok fun variant member => ?_
    obtain ⟨tys, reads, written⟩ := exists_typesIn faithful (legible variant member) typeParams
    refine ⟨(variant.1, tys), ?_, rfl, written⟩
    rw [Variant.name_ofDeclared, Variant.fields_ofDeclared, List.mapM_map]
    exact bind_eq_ok_iff.mpr ⟨tys, reads, rfl⟩
  let info : TypeInfo := {
    name := decl.name
    ty := .sum decl.name variants'
    typeParams := openParams typeParams }
  refine ⟨info, variants', ?_, rfl, rfl, ?_, ?_⟩
  · refine bind_eq_ok_iff.mpr ⟨variants', ?_, rfl⟩
    rw [ofVariants, List.mapM_map]
    exact ran
  · exact map_eq_map_iff.mpr (related.imp fun _ _ both => both.1)
  · rw [List.forall₂_map_left_iff, List.forall₂_map_right_iff]
    refine related.imp fun known variant both => ⟨both.1, ?_, names_openParams _⟩
    have result : info.applied.text = decl.info.applied.text :=
      text_applied isSum rfl (names_openParams _)
    rw [Signature.toTy, Signature.toTy, Ty.text, Ty.text]
    unfold ConstructorTable.signatureOf
    rw [both.2, result]

/-- The summary of a record or hidden type stands for a type of its name. -/
theorem exists_infoIn? (faithful : types.Faithful) {decl : Typed.TypeDecl} {known : TypeDecl}
    (given : ofType? decl = some known) (legible : ∀ ty ∈ decl.fieldTypes, ty.Legible) :
    ∃ info, known.infoIn? types = .ok (some info) ∧
      info.ty.declaredName? = some info.name := by
  unfold ofType? at given
  unfold Typed.TypeDecl.fieldTypes at legible
  cases shape : decl.ty with
  | record name fields =>
      rw [shape] at given legible
      cases given
      obtain ⟨fields', ran, -⟩ : ∃ fields', (fields.mapM fun field => do
          return (field.1, ← typeIn types (decl.typeParams.map TypeParam.name) field.2.text)) =
            .ok fields' ∧ List.Forall₂ (fun _ _ => True) fields' fields := by
        refine exists_mapM_ok fun field member => ?_
        obtain ⟨ty, reads, -⟩ := exists_typeIn faithful
          (legible field.2 (List.mem_map_of_mem member)) (decl.typeParams.map TypeParam.name)
        exact ⟨(field.1, ty), bind_eq_ok_iff.mpr ⟨ty, reads, rfl⟩, trivial⟩
      refine ⟨_, bind_eq_ok_iff.mpr ⟨fields', ?_, rfl⟩, rfl⟩
      dsimp only
      rw [List.mapM_map]
      exact ran
  | abstract name =>
      rw [shape] at given
      cases given
      exact ⟨_, rfl, rfl⟩
  | _ =>
      rw [shape] at given
      cases given

end Summary

/-! ### Loading -/

/-- The entry is made for a signature that is written as this one. -/
def Carried (reg : Registration) (sig : Signature) (entry : Entry Signature) : Prop :=
  ∃ known : Signature, known.PrintsAs sig ∧ entry = .make known.name known reg

/-- What is known after signatures and sums have been loaded: each of them is written as it
was where it comes from. -/
structure Environment.Loaded (reg : Registration) (signatures : List Signature)
    (sums : List (String × List String)) (env : Environment) : Prop where
  types : env.types.Faithful
  tables : Declares (Carried reg) signatures sums env.functions env.constructors

theorem Stateful.bind_of_ok {ε σ α β : Type} {x : Stateful ε σ α} {s t : σ} {a : α}
    (first : x s = (.ok a, t)) (f : α → Stateful ε σ β) : (x >>= f) s = f a t := by
  rw [bind_apply, first]

theorem Stateful.forM_cons_of_ok {ε σ α : Type} {f : α → Stateful ε σ Unit} {a : α} {s t : σ}
    (first : f a s = (.ok (), t)) (l : List α) : (a :: l).forM f s = l.forM f t :=
  bind_of_ok first fun _ => l.forM f

namespace Summary

variable {reg : Registration} {signatures : List Signature} {sums : List (String × List String)}
variable {env : Environment}

theorem loaded_types {decls : List Typed.TypeDecl}
    (legible : ∀ decl ∈ decls, ∀ ty ∈ decl.fieldTypes, ty.Legible)
    (loaded : env.Loaded reg signatures sums) :
    ∃ after, (decls.filterMap ofType?).forM (loadType reg) env = (.ok (), after) ∧
      after.Loaded reg signatures sums := by
  induction decls generalizing env with
  | nil => exact ⟨env, rfl, loaded⟩
  | cons decl decls ih =>
      have others := fun decl member => legible decl (List.mem_cons_of_mem _ member)
      cases given : ofType? decl with
      | none =>
          rw [List.filterMap_cons_none given]
          exact ih others loaded
      | some known =>
          obtain ⟨info, stands, named⟩ :=
            exists_infoIn? loaded.types given (legible decl List.mem_cons_self)
          have first := loadType_apply reg known env
          rw [stands] at first
          rw [List.filterMap_cons_some given, Stateful.forM_cons_of_ok first]
          exact ih others ⟨loaded.types.register named reg, loaded.tables⟩

theorem loaded_sum {decl : Typed.TypeDecl} {variants : List (String × List Ty)}
    (isSum : decl.ty = .sum decl.name variants) (legible : ∀ ty ∈ decl.fieldTypes, ty.Legible)
    (loaded : env.Loaded reg signatures sums) (new : decl.name ∉ sums.map Prod.fst)
    (distinct : ((signatures ++ decl.constructors).map Signature.name).Nodup) :
    ∃ after, loadSum reg (ofVariants decl variants) env = (.ok (), after) ∧
      after.Loaded reg (signatures ++ decl.constructors) (sums ++ decl.sums) := by
  have fields : decl.fieldTypes = variants.flatMap Prod.snd := by
    rw [Typed.TypeDecl.fieldTypes, isSum]
  rw [fields] at legible
  obtain ⟨info, variants', stands, named, isKnown, same, prints⟩ :=
    exists_infoIn loaded.types isSum fun variant member ty held =>
      legible ty (List.mem_flatMap.mpr ⟨variant, member, held⟩)
  refine ⟨env.withSum info reg, by rw [loadSum_apply reg rfl, stands], ?_, ?_⟩
  · exact loaded.types.register (by rw [isKnown, named]; rfl) reg
  · rw [Typed.TypeDecl.sums_of_sum isSum, ← named, ← same]
    refine loaded.tables.registerSum (by rw [isKnown]; rfl) (named ▸ new) distinct ?_
    rw [Typed.TypeDecl.constructors_of_sum isSum]
    exact prints.flip.imp fun sig known prints => ⟨prints.name, known, prints, rfl⟩

theorem loaded_sums {decls : List Typed.TypeDecl}
    (own : ∀ decl ∈ decls, ∀ variants, decl.variants? = some variants →
      decl.ty = .sum decl.name variants)
    (legible : ∀ decl ∈ decls, ∀ ty ∈ decl.fieldTypes, ty.Legible)
    (loaded : env.Loaded reg signatures sums)
    (apart : (sums.map Prod.fst ++ decls.map Typed.TypeDecl.name).Nodup)
    (distinct : ((signatures ++ decls.flatMap Typed.TypeDecl.constructors).map
      Signature.name).Nodup) :
    ∃ after, (decls.filterMap ofSum?).forM (loadSum reg) env = (.ok (), after) ∧
      after.Loaded reg (signatures ++ decls.flatMap Typed.TypeDecl.constructors)
        (sums ++ decls.flatMap Typed.TypeDecl.sums) := by
  induction decls generalizing env signatures sums with
  | nil => exact ⟨env, rfl, by simpa using loaded⟩
  | cons decl decls ih =>
      have ih {env signatures sums} := @ih signatures sums env
        (fun decl member => own decl (List.mem_cons_of_mem _ member))
        (fun decl member => legible decl (List.mem_cons_of_mem _ member))
      rw [List.flatMap_cons, ← List.append_assoc] at distinct ⊢
      rw [List.flatMap_cons, ← List.append_assoc]
      rw [List.map_cons] at apart
      cases shape : decl.variants? with
      | some variants =>
          have isSum := own decl List.mem_cons_self variants shape
          have given : ofSum? decl = some (ofVariants decl variants) := by
            rw [ofSum?_eq, shape, Option.map_some]
          have named : decl.sums.map Prod.fst = [decl.name] := by
            rw [Typed.TypeDecl.sums_of_sum isSum]
            rfl
          have new : decl.name ∉ sums.map Prod.fst := fun member =>
            (List.nodup_append.mp apart).2.2 _ member _ List.mem_cons_self rfl
          rw [List.map_append] at distinct
          obtain ⟨next, first, loaded⟩ := loaded_sum isSum (legible decl List.mem_cons_self)
            loaded new (List.nodup_append.mp distinct).1
          rw [List.filterMap_cons_some given, Stateful.forM_cons_of_ok first]
          refine ih loaded ?_ (by rwa [List.map_append])
          rwa [List.map_append, named, List.append_assoc, List.singleton_append]
      | none =>
          have given : ofSum? decl = none := by
            rw [ofSum?_eq, shape, Option.map_none]
          have constructors : decl.constructors = [] := by
            rw [Typed.TypeDecl.constructors, shape]
            rfl
          have listed : decl.sums = [] := by
            rw [Typed.TypeDecl.sums, shape]
            rfl
          rw [constructors, List.append_nil] at distinct ⊢
          rw [listed, List.append_nil, List.filterMap_cons_none given]
          refine ih loaded (apart.sublist ?_) distinct
          exact List.Sublist.append_left (List.sublist_cons_self _ _) _

theorem loaded_functions {decls : List Typed.Function}
    (legible : ∀ decl ∈ decls, ∀ ty ∈ decl.types, ty.Legible)
    (loaded : env.Loaded reg signatures sums)
    (distinct : ((signatures ++ decls.map Typed.Function.signature).map Signature.name).Nodup) :
    ∃ after, (decls.map ofFunction).forM (loadFunction reg) env = (.ok (), after) ∧
      after.Loaded reg (signatures ++ decls.map Typed.Function.signature) sums := by
  induction decls generalizing env signatures with
  | nil => exact ⟨env, rfl, by simpa using loaded⟩
  | cons decl decls ih =>
      obtain ⟨sig, stands, prints⟩ :=
        exists_signatureIn loaded.types (legible decl List.mem_cons_self)
      have first := loadFunction_apply reg (ofFunction decl) env
      rw [stands] at first
      rw [List.map_cons] at distinct
      have new := Declares.new_of_distinct distinct
      rw [List.append_cons] at distinct
      rw [List.map_cons, List.map_cons, List.append_cons, Stateful.forM_cons_of_ok first]
      refine ih (fun decl member => legible decl (List.mem_cons_of_mem _ member)) ?_ distinct
      exact ⟨loaded.types, loaded.tables.register new prints.name ⟨sig, prints, rfl⟩⟩

/-- Where the types that a module exposes are legible and the names that it exports are
distinct, loading its summary makes them known as they are written in the module. -/
theorem loaded_module {m : Typed.Module}
    (own : ∀ decl ∈ m.exportedTypes, ∀ variants, decl.variants? = some variants →
      decl.ty = .sum decl.name variants)
    (legible : ∀ ty ∈ m.exposed, ty.Legible)
    (apart : (m.exportedTypes.map Typed.TypeDecl.name).Nodup)
    (distinct : (m.exportedSignatures.map Signature.name).Nodup) :
    ∃ loaded, (ofModule m).load {} = (.ok (), loaded) ∧
      loaded.Loaded (registration m.name) m.exportedSignatures
        (m.exportedTypes.flatMap Typed.TypeDecl.sums) := by
  have legibleTypes : ∀ decl ∈ m.exportedTypes, ∀ ty ∈ decl.fieldTypes, ty.Legible :=
    fun decl member ty held =>
      legible ty (List.mem_append_left _ (List.mem_flatMap.mpr ⟨decl, member, held⟩))
  have legibleFunctions : ∀ decl ∈ m.exportedFunctions, ∀ ty ∈ decl.types, ty.Legible :=
    fun decl member ty held =>
      legible ty (List.mem_append_right _ (List.mem_flatMap.mpr ⟨decl, member, held⟩))
  have distinctTypes : ((m.exportedTypes.flatMap Typed.TypeDecl.constructors).map
      Signature.name).Nodup := by
    rw [Typed.Module.exportedSignatures, List.map_append] at distinct
    exact (List.nodup_append.mp distinct).1
  have fresh : ({} : Environment).Loaded (registration m.name) [] [] := ⟨.primitives, .empty⟩
  obtain ⟨env, first, loaded⟩ := loaded_types legibleTypes fresh
  obtain ⟨env', second, loaded⟩ := loaded_sums own legibleTypes loaded apart distinctTypes
  obtain ⟨env'', third, loaded⟩ := loaded_functions legibleFunctions loaded distinct
  refine ⟨env'', ?_, loaded⟩
  exact (Stateful.bind_of_ok first _).trans ((Stateful.bind_of_ok second _).trans third)

end Summary

end ModuleTyping
