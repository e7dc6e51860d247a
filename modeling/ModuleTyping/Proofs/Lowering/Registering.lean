import ModuleTyping.Proofs.Lowering.Imports
import ModuleTyping.Proofs.Lowering.Kinship
import ModuleTyping.Proofs.SymbolTable.Exchange
import ModuleTyping.Proofs.SymbolTable.Resolution

/-!
# Registering akin declarations

Registering akin types in akin states leaves akin states (`Akin.withDeclaration`), and
registering two types in either order leaves states that differ in the order of listings
only (`withDeclaration_comm`).
-/

namespace ModuleTyping

open SymbolTable (Reordered)

namespace Ty

variable {known : Outlines}

/-- Variants with the same names and akin fields. -/
abbrev AkinVariants (known : Outlines) : List (String × List Ty) → List (String × List Ty) → Prop :=
  List.Forall₂ fun variant variant' => variant.1 = variant'.1 ∧ AkinAll known variant.2 variant'.2

theorem akinVariants_of_eraseVariants {variants variants' : List (String × List Ty)}
    (same : eraseVariants known variants = eraseVariants known variants') :
    AkinVariants known variants variants' := by
  induction variants generalizing variants' with
  | nil =>
      cases variants' with
      | nil => exact .nil
      | cons => cases same
  | cons variant variants ih =>
      cases variants' with
      | nil => cases same
      | cons variant' variants' =>
          rw [eraseVariants, eraseVariants, List.cons.injEq, Prod.mk.injEq] at same
          exact .cons ⟨same.1.1, akinAll_iff.mpr same.1.2⟩ (ih same.2)

end Ty

namespace TypeInfo

variable {known : Outlines} {info info' : TypeInfo}

theorem Akin.variants? (akin : Akin known info info') :
    Option.Rel (Ty.AkinVariants known) info.ty.variants? info'.ty.variants? := by
  have same := congrArg Ty.variants? akin.ty
  rw [Ty.variants?_eraseWithin, Ty.variants?_eraseWithin] at same
  exact rel_imp (rel_of_map_eq same) fun _ _ _ _ erased => Ty.akinVariants_of_eraseVariants erased

/-- The types of the fields of the variants apply no variable. -/
def VariantsRooted (info : TypeInfo) : Prop :=
  ∀ variants, info.ty.variants? = some variants → ∀ variant ∈ variants,
    Ty.areRooted variant.2 = true

theorem Akin.isRooted_applied (akin : Akin known info info') : info.applied.isRooted = true := by
  unfold TypeInfo.applied
  split
  · exact akin.rooted
  · have vars (params : List TypeParam) : Ty.areRooted (params.map TypeParam.toVar) = true := by
      induction params with
      | nil => rfl
      | cons param params ih => exact ih
    rw [Ty.isRooted, akin.rooted, akin.notVar, vars]
    rfl

end TypeInfo

namespace ConstructorTable

variable {known : Outlines} {info info' : TypeInfo}

theorem signatureOf_akin (infos : info.Akin known info') {variant variant' : String × List Ty}
    (variants : variant.1 = variant'.1 ∧ Ty.AkinAll known variant.2 variant'.2) :
    (signatureOf info variant).Akin known (signatureOf info' variant') :=
  ⟨variants.1, variants.2, infos.applied, infos.typeParams⟩

theorem declared?_akin (infos : info.Akin known info')
    {variants variants' : List (String × List Ty)}
    (all : Ty.AkinVariants known variants variants') (name : String) :
    Option.Rel (fun constructor constructor' =>
        constructor.signature.Akin known constructor'.signature)
      (declared? info variants name) (declared? info' variants' name) := by
  have found {l l' : List (String × List Ty)} (all : Ty.AkinVariants known l l') :
      Option.Rel (fun variant variant' => variant.1 = variant'.1 ∧
          Ty.AkinAll known variant.2 variant'.2)
        (l.find? (·.1 == name)) (l'.find? (·.1 == name)) := by
    induction all with
    | nil => exact .none
    | @cons variant variant' _ _ first _ ih =>
        rw [List.find?_cons, List.find?_cons, ← first.1]
        cases variant.1 == name with
        | true => exact .some first
        | false => exact ih
  exact rel_map (found (List.rel_reverse all)) fun _ _ variants => signatureOf_akin infos variants

/-- The tables hold akin constructors. -/
structure Akin (known : Outlines) (tables tables' : ConstructorTable × FunctionTable) : Prop where
  functions : tables.2.table.Resembles
    (fun sig sig' => sig.Akin known sig' ∧ sig.isRooted = true) tables'.2.table
  constructors : ∀ name, Option.Rel
    (fun constructor constructor' => constructor.signature.Akin known constructor'.signature)
    (tables.1.get? name) (tables'.1.get? name)
  variantsOf : ∀ name, tables.1.variantsOf name = tables'.1.variantsOf name

theorem resembles_sumEdits {a b : SymbolTable Signature}
    (tables : a.Resembles (fun sig sig' => sig.Akin known sig' ∧ sig.isRooted = true) b)
    (infos : info.Akin known info') {variants variants' : List (String × List Ty)}
    (rooted : ∀ variant ∈ variants, Ty.areRooted variant.2 = true)
    (all : Ty.AkinVariants known variants variants') (old : List String) (reg : Registration) :
    ((sumEdits old info variants reg).foldl SymbolTable.edited a).Resembles
      (fun sig sig' => sig.Akin known sig' ∧ sig.isRooted = true)
      ((sumEdits old info' variants' reg).foldl SymbolTable.edited b) := by
  unfold sumEdits
  rw [List.foldl_append, List.foldl_append]
  induction old generalizing a b with
  | cons name old ih => exact ih (tables.delete name)
  | nil =>
      induction all generalizing a b with
      | nil => exact tables
      | @cons variant variant' variants variants' first _ ih =>
          have sigs : (signatureOf info variant).Akin known (signatureOf info' variant') ∧
              (signatureOf info variant).isRooted = true := by
            refine ⟨signatureOf_akin infos first, ?_⟩
            rw [Signature.isRooted, signatureOf, rooted variant List.mem_cons_self,
              infos.isRooted_applied]
            rfl
          refine ih (fun later listed => rooted later (List.mem_cons_of_mem _ listed)) ?_
          show (a.register variant.1 _ reg).Resembles _ (b.register variant'.1 _ reg)
          rw [← first.1]
          exact tables.register variant.1 sigs reg

section Registered

variable {tables tables' : ConstructorTable × FunctionTable}

theorem Akin.registered_sum (akin : Akin known tables tables') (infos : info.Akin known info')
    (named : info.name = info'.name) {variants variants' : List (String × List Ty)}
    (isSum : info.ty.variants? = some variants) (isSum' : info'.ty.variants? = some variants')
    (all : Ty.AkinVariants known variants variants')
    (rooted : ∀ variant ∈ variants, Ty.areRooted variant.2 = true) (reg : Registration) :
    Akin known (registered tables info reg) (registered tables' info' reg) := by
  have old : tables.1.variantsOf info.name = tables'.1.variantsOf info'.name := by
    rw [akin.variantsOf, named]
  refine ⟨?_, fun name => ?_, fun name => ?_⟩
  · unfold ConstructorTable.registered
    rw [table_registerSum isSum, table_registerSum isSum', old]
    exact resembles_sumEdits akin.functions infos rooted all _ reg
  · unfold ConstructorTable.registered
    rw [get?_registerSum isSum, get?_registerSum isSum', old]
    have new := declared?_akin infos all name
    generalize declared? info variants name = constructor at new ⊢
    generalize declared? info' variants' name = constructor' at new ⊢
    cases new with
    | some signatures => exact .some signatures
    | none =>
        rw [Option.none_or, Option.none_or]
        split
        · exact .none
        · exact akin.constructors name
  · have names : variants.map Prod.fst = variants'.map Prod.fst := by
      have names := infos.variantNames
      rw [isSum, isSum'] at names
      exact Option.some.inj names
    rw [variantsOf_registered isSum, variantsOf_registered isSum', named, names, akin.variantsOf]

theorem Akin.registered (akin : Akin known tables tables') (infos : info.Akin known info')
    (rooted : info.VariantsRooted) (named : info.name = info'.name) (reg : Registration) :
    Akin known (registered tables info reg) (registered tables' info' reg) := by
  have sums := infos.variants?
  generalize isSum : info.ty.variants? = variants at sums
  generalize isSum' : info'.ty.variants? = variants' at sums
  cases sums with
  | some all => exact akin.registered_sum infos named isSum isSum' all (rooted _ isSum) reg
  | none =>
      have kept (tables : ConstructorTable × FunctionTable) {info : TypeInfo}
          (other : info.ty.variants? = none) :
          ConstructorTable.registered tables info reg = tables :=
        registerSum_other _ _ (by rw [TypeInfo.variantNames?, other, Option.map_none]) _
      rw [kept _ isSum, kept _ isSum']
      exact akin

end Registered

end ConstructorTable

/-! ### States -/

namespace Environment

variable {known : Outlines} {a b d : Environment}

/-- The environments hold the same, but for the order of listings. -/
structure Shuffled (a b : Environment) : Prop where
  scopes : a.scopes = b.scopes
  types : a.types.table.Reordered b.types.table
  tables : ConstructorTable.Shuffled (a.constructors, a.functions) (b.constructors, b.functions)

theorem Akin.tables (akin : a.Akin known b) :
    ConstructorTable.Akin known (a.constructors, a.functions) (b.constructors, b.functions) :=
  ⟨akin.functions, akin.constructors, akin.variantsOf⟩

theorem Akin.shuffled (akin : a.Akin known b) (same : b.Shuffled d) : a.Akin known d where
  scopes := same.scopes ▸ akin.scopes
  types := akin.types.reordered same.types
  functions := akin.functions.reordered same.tables.functions
  constructors name := same.tables.constructors name ▸ akin.constructors name
  variantsOf name := (akin.variantsOf name).trans (same.tables.variantsOf name)

/-- No type that is known is a variable or applies one. -/
structure Rooted (env : Environment) : Prop where
  types : Meanings.Rooted env.types.info?
  functions : ∀ name sig, env.functions.signature? name = some sig → sig.isRooted = true

theorem Shuffled.akin (same : a.Shuffled b) (rooted : a.Rooted) : a.Akin known b where
  scopes := same.scopes ▸ .refl a.scopes
  types := .of_reordered same.types fun key entry held => by
    have found : a.types.info? key = some entry.value := by
      rw [TypeTable.info?, TypeTable.entry?, SymbolTable.get?_of_held held, Option.map_some]
    exact .refl (rooted.types key entry.value found).1 (rooted.types key entry.value found).2
  functions := .of_reordered same.tables.functions fun key entry held => by
    have found : a.functions.signature? key = some entry.value := by
      rw [FunctionTable.signature?, FunctionTable.entry?, SymbolTable.get?_of_held held,
        Option.map_some]
    exact ⟨⟨rfl, List.forall₂_same.mpr fun _ _ => .refl _, .refl _, rfl⟩,
      rooted.functions key entry.value found⟩
  constructors name := by
    have found := same.tables.constructors name
    dsimp only at found
    rw [← found]
    cases a.constructors.get? name with
    | none => exact .none
    | some constructor =>
        exact .some ⟨rfl, List.forall₂_same.mpr fun _ _ => .refl _, .refl _, rfl⟩
  variantsOf := same.tables.variantsOf

end Environment

namespace TypeTable

/-- The table is built by registering types. -/
structure Unaliased (types : TypeTable) : Prop where
  reachable : types.table.Reachable
  unused : ∀ name, types.table.aliases.get? name = none

variable {types : TypeTable}

theorem Unaliased.register (unaliased : types.Unaliased) (info : TypeInfo) (reg : Registration) :
    (types.register info reg).Unaliased where
  reachable := unaliased.reachable.after_register info.name info reg
  unused name := by
    show (types.table.register info.name info reg).aliases.get? name = none
    rw [SymbolTable.get?_aliases_register, unaliased.unused]
    split <;> rfl

/-- Without aliases, a name stands for what is registered under it. -/
theorem Unaliased.info?_eq (unaliased : types.Unaliased) (name : String) :
    types.info? name = (types.table.entries.get? name).map Entry.value := by
  unfold info? entry?
  cases held : types.table.entries.get? name with
  | some entry => rw [SymbolTable.get?_of_held held]
  | none =>
      have unresolved : types.table.canonicalName? name = none :=
        (SymbolTable.canonicalName?_of_unregistered held).trans (unaliased.unused name)
      rw [SymbolTable.get?, unresolved]
      rfl

theorem Unaliased.info?_register (unaliased : types.Unaliased) (info : TypeInfo)
    (reg : Registration) (name : String) :
    (types.register info reg).info? name =
      if name = info.name then some info else types.info? name := by
  rw [(unaliased.register info reg).info?_eq, unaliased.info?_eq]
  exact unaliased.reachable.consistent.value_register info.name name info reg

/-- The scalars are registered like any other types. -/
theorem primitives_induction {Q : TypeTable → Prop} (start : Q ⟨∅⟩)
    (step : ∀ types name, Q types →
      Q (types.register { name, ty := .primitive name } {})) : Q primitives :=
  List.foldlRecOn (motive := fun table => Q ⟨table⟩) primitiveNames _ start
    fun table holds name _ => step ⟨table⟩ name holds

theorem unaliased_primitives : primitives.Unaliased :=
  primitives_induction ⟨⟨[], rfl⟩, fun _ => rfl⟩ fun _ _ unaliased => unaliased.register _ _

theorem info?_primitives {name : String} {info : TypeInfo}
    (held : primitives.info? name = some info) : info.ty = .primitive name := by
  have each : primitives.Unaliased ∧
      ∀ name info, primitives.info? name = some info → info.ty = .primitive name := by
    refine primitives_induction (Q := fun types => types.Unaliased ∧
      ∀ name info, types.info? name = some info → info.ty = .primitive name) ?_ ?_
    · exact ⟨⟨⟨[], rfl⟩, fun _ => rfl⟩, fun _ _ held => by cases held⟩
    · rintro types registered ⟨unaliased, scalars⟩
      refine ⟨unaliased.register _ _, fun name info held => ?_⟩
      rw [unaliased.info?_register] at held
      split at held
      · next same =>
          cases held
          rw [same]
      · exact scalars name info held
  exact each.2 name info held

end TypeTable

namespace LowerState

theorem lasting_unaliased : Lasting fun s => s.env.types.Unaliased where
  env _ := {
    type _ _ _ unaliased := unaliased.register _ _
    sum _ _ _ unaliased := unaliased
    function _ _ _ unaliased := unaliased
    aliased _ _ _ _ _ unaliased := unaliased }
  retagged _ _ after unaliased := after.types ▸ unaliased
  entered _ _ _ unaliased := unaliased
  loaded _ _ unaliased := unaliased

theorem Reachable.unaliased {s : LowerState} (reachable : s.Reachable) :
    s.env.types.Unaliased :=
  reachable.of_lasting lasting_unaliased TypeTable.unaliased_primitives

end LowerState

namespace Source.TypeDecl

/-- The declaration is that of a sum. -/
def isSum (decl : TypeDecl) : Bool :=
  match decl.body with
  | .sum _ => true
  | _ => false

/-- What is known of the type has the name and the variants that are declared. -/
structure Fits (decl : TypeDecl) (info : TypeInfo) : Prop where
  name : info.name = decl.name
  variants : decl.isSum = true → info.variantNames? = some decl.constructorNames

/-- The tables of constructors and functions after the type is declared. -/
def addTo (decl : TypeDecl) (tables : ConstructorTable × FunctionTable) (info : TypeInfo)
    (reg : Registration) : ConstructorTable × FunctionTable :=
  if decl.isSum then ConstructorTable.registered tables info reg else tables

end Source.TypeDecl

namespace LowerState

variable {known : Outlines} {s t : LowerState} {decl decl' : Source.TypeDecl}
variable {info info' : TypeInfo}

theorem Akin.registrationOf (akin : s.Akin known t) (decl : Source.TypeDecl) :
    s.registrationOf decl = t.registrationOf decl := by
  unfold LowerState.registrationOf
  rw [akin.moduleName, akin.namespaceName]

theorem Akin.withType (akin : s.Akin known t) (infos : info.Akin known info')
    (named : info.name = info'.name) (decl : Source.TypeDecl) :
    (s.withType decl info).Akin known (t.withType decl info') := by
  have types : (s.env.types.table.register info.name info (s.registrationOf decl)).Resembles
      (TypeInfo.Akin known)
      (t.env.types.table.register info'.name info' (t.registrationOf decl)) := by
    rw [akin.registrationOf, named]
    exact akin.env.types.register _ infos _
  exact { akin with env := { akin.env with types } }

theorem Akin.withConstructors (akin : s.Akin known t) (infos : info.Akin known info')
    (rooted : info.VariantsRooted) (named : info.name = info'.name) (decl : Source.TypeDecl) :
    (s.withConstructors decl info).Akin known (t.withConstructors decl info') := by
  have tables : ConstructorTable.Akin known
      (ConstructorTable.registered (s.env.constructors, s.env.functions) info
        (s.registrationOf decl))
      (ConstructorTable.registered (t.env.constructors, t.env.functions) info'
        (t.registrationOf decl)) := by
    rw [← akin.registrationOf]
    exact akin.env.tables.registered infos rooted named _
  have env : (s.withConstructors decl info).env.Akin known (t.withConstructors decl info').env :=
    ⟨akin.env.scopes, akin.env.types, tables.functions, tables.constructors, tables.variantsOf⟩
  exact { akin with env }

/-- Declaring akin types in akin states leaves akin states. -/
theorem Akin.withDeclaration (akin : s.Akin known t) (infos : info.Akin known info')
    (rooted : decl.isSum = true → info.VariantsRooted) (named : info.name = info'.name) :
    (s.withDeclaration decl info).Akin known (t.withDeclaration decl info') := by
  have registered := akin.withType infos named decl
  unfold LowerState.withDeclaration
  split
  · next variants body =>
      have isSum : decl.isSum = true := by rw [Source.TypeDecl.isSum, body]
      exact registered.withConstructors infos (rooted isSum) named decl
  · exact registered

/-- The states are the same, but for announcements and the order of listings. -/
structure Shuffled (s t : LowerState) : Prop where
  env : s.env.Shuffled t.env
  moduleName : s.moduleName = t.moduleName
  namespaceName : s.namespaceName = t.namespaceName
  typeParams : s.typeParams = t.typeParams
  results : s.results = t.results

theorem Akin.shuffled {r : LowerState} (akin : s.Akin known t) (same : t.Shuffled r) :
    s.Akin known r where
  env := akin.env.shuffled same.env
  moduleName := akin.moduleName.trans same.moduleName
  namespaceName := akin.namespaceName.trans same.namespaceName
  typeParams := akin.typeParams.trans same.typeParams
  results := same.results ▸ akin.results

theorem Shuffled.akin (same : s.Shuffled t) (rooted : s.env.Rooted) : s.Akin known t where
  env := same.env.akin rooted
  moduleName := same.moduleName
  namespaceName := same.namespaceName
  typeParams := same.typeParams
  results := same.results ▸ List.forall₂_same.mpr fun _ _ => .refl _

theorem tables_withDeclaration (s : LowerState) (decl : Source.TypeDecl) (info : TypeInfo) :
    ((s.withDeclaration decl info).env.constructors, (s.withDeclaration decl info).env.functions) =
      decl.addTo (s.env.constructors, s.env.functions) info (s.registrationOf decl) := by
  unfold withDeclaration Source.TypeDecl.addTo Source.TypeDecl.isSum
  cases decl.body <;> rfl

@[simp] theorem types_withDeclaration (s : LowerState) (decl : Source.TypeDecl)
    (info : TypeInfo) : (s.withDeclaration decl info).env.types =
      s.env.types.register info (s.registrationOf decl) := by
  unfold withDeclaration
  cases decl.body <;> rfl

@[simp] theorem scopes_withDeclaration (s : LowerState) (decl : Source.TypeDecl)
    (info : TypeInfo) : (s.withDeclaration decl info).env.scopes = s.env.scopes := by
  unfold withDeclaration
  cases decl.body <;> rfl

@[simp] theorem moduleName_withDeclaration (s : LowerState) (decl : Source.TypeDecl)
    (info : TypeInfo) : (s.withDeclaration decl info).moduleName = s.moduleName := by
  unfold withDeclaration
  cases decl.body <;> rfl

@[simp] theorem namespaceName_withDeclaration (s : LowerState) (decl : Source.TypeDecl)
    (info : TypeInfo) : (s.withDeclaration decl info).namespaceName = s.namespaceName := by
  unfold withDeclaration
  cases decl.body <;> rfl

@[simp] theorem typeParams_withDeclaration (s : LowerState) (decl : Source.TypeDecl)
    (info : TypeInfo) : (s.withDeclaration decl info).typeParams = s.typeParams := by
  unfold withDeclaration
  cases decl.body <;> rfl

@[simp] theorem results_withDeclaration (s : LowerState) (decl : Source.TypeDecl)
    (info : TypeInfo) : (s.withDeclaration decl info).results = s.results := by
  unfold withDeclaration
  cases decl.body <;> rfl

@[simp] theorem registrationOf_withDeclaration (s : LowerState) (decl decl' : Source.TypeDecl)
    (info : TypeInfo) :
    (s.withDeclaration decl info).registrationOf decl' = s.registrationOf decl' := by
  simp only [registrationOf, moduleName_withDeclaration, namespaceName_withDeclaration]

theorem reachable_addTo {tables : ConstructorTable × FunctionTable}
    (reachable : tables.2.table.Reachable) (decl : Source.TypeDecl) (info : TypeInfo)
    (reg : Registration) : (decl.addTo tables info reg).2.table.Reachable := by
  unfold Source.TypeDecl.addTo
  split
  · exact ConstructorTable.reachable_registerSum _ reachable _ _
  · exact reachable

theorem addTo_comm {tables : ConstructorTable × FunctionTable}
    (reachable : tables.2.table.Reachable) (fits : decl.Fits info) (fits' : decl'.Fits info')
    (different : decl.name ≠ decl'.name)
    (apart : ∀ name ∈ decl.constructorNames, name ∉ decl'.constructorNames)
    (kept : decl.isSum = true → ∀ name ∈ tables.1.variantsOf decl.name,
      name ∉ decl'.constructorNames)
    (kept' : decl'.isSum = true → ∀ name ∈ tables.1.variantsOf decl'.name,
      name ∉ decl.constructorNames)
    (reg reg' : Registration) :
    ConstructorTable.Shuffled (decl'.addTo (decl.addTo tables info reg) info' reg')
      (decl.addTo (decl'.addTo tables info' reg') info reg) := by
  have other {decl : Source.TypeDecl} (isSum : decl.isSum = false)
      (tables : ConstructorTable × FunctionTable) (info : TypeInfo) (reg : Registration) :
      decl.addTo tables info reg = tables := by
    rw [Source.TypeDecl.addTo, isSum]
    rfl
  have sum {decl : Source.TypeDecl} (isSum : decl.isSum = true)
      (tables : ConstructorTable × FunctionTable) (info : TypeInfo) (reg : Registration) :
      decl.addTo tables info reg = ConstructorTable.registered tables info reg := by
    rw [Source.TypeDecl.addTo, isSum]
    rfl
  cases isSum : decl.isSum with
  | false =>
      rw [other isSum, other isSum]
      exact .refl (reachable_addTo reachable decl' info' reg')
  | true =>
      cases isSum' : decl'.isSum with
      | false =>
          rw [other isSum', other isSum']
          exact .refl (reachable_addTo reachable decl info reg)
      | true =>
          obtain ⟨variants, holds, names⟩ := Option.map_eq_some_iff.mp (fits.variants isSum)
          obtain ⟨variants', holds', names'⟩ := Option.map_eq_some_iff.mp (fits'.variants isSum')
          rw [← fits.name, ← fits'.name] at different
          rw [← fits.name, ← names'] at kept
          rw [← fits'.name, ← names] at kept'
          rw [← names, ← names'] at apart
          rw [sum isSum, sum isSum', sum isSum, sum isSum']
          exact ConstructorTable.registered_comm holds holds' different apart (kept isSum)
            (kept' isSum') reachable reg reg'

/-- Two types may be declared in either order, if the one has no constructor that the other
one has or had. -/
theorem withDeclaration_comm (types : s.env.types.table.Reachable)
    (functions : s.env.functions.table.Reachable) (fits : decl.Fits info)
    (fits' : decl'.Fits info') (different : decl.name ≠ decl'.name)
    (apart : ∀ name ∈ decl.constructorNames, name ∉ decl'.constructorNames)
    (kept : decl.isSum = true →
      ∀ name ∈ s.env.constructors.variantsOf decl.name, name ∉ decl'.constructorNames)
    (kept' : decl'.isSum = true →
      ∀ name ∈ s.env.constructors.variantsOf decl'.name, name ∉ decl.constructorNames) :
    ((s.withDeclaration decl info).withDeclaration decl' info').Shuffled
      ((s.withDeclaration decl' info').withDeclaration decl info) := by
  refine ⟨⟨by simp, ?_, ?_⟩, by simp, by simp, by simp, by simp⟩
  · rw [types_withDeclaration, types_withDeclaration, types_withDeclaration, types_withDeclaration,
      registrationOf_withDeclaration, registrationOf_withDeclaration]
    refine types.register_comm ?_ _ _ _ _
    rwa [fits.name, fits'.name]
  · rw [tables_withDeclaration, tables_withDeclaration, tables_withDeclaration,
      tables_withDeclaration, registrationOf_withDeclaration, registrationOf_withDeclaration]
    exact addTo_comm functions fits fits' different apart kept kept' _ _

theorem withType_comm (types : s.env.types.table.Reachable)
    (functions : s.env.functions.table.Reachable) (different : info.name ≠ info'.name) :
    ((s.withType decl info).withType decl' info').Shuffled
      ((s.withType decl' info').withType decl info) :=
  ⟨⟨rfl, types.register_comm different _ _ _ _, .refl functions⟩, rfl, rfl, rfl, rfl⟩

end LowerState

end ModuleTyping
