import ModuleTyping.Proofs.Lowering.Order
import ModuleTyping.Proofs.Summary.Loading
import ModuleTyping.Proofs.SymbolTable.Members

/-!
# What qualified names refer to

Functions are registered by their plain names, and the keys that an import makes for the
functions of a module stand for those names. So a function that is declared again, by a
module imported later or by the importing module itself, takes the place of the one before,
under its keys too: what `M.f` refers to in the end is the function `f` that was declared
last, and that is the one of `M` only if nothing after `M` declares `f`.
-/

namespace ModuleTyping

open ModulePath (memberKey)

variable {f : String} {declared : Option (Entry Signature)} {containers : String → Prop}

/-- What the tables hold of the function `f`. -/
structure Environment.Knows (f : String) (declared : Option (Entry Signature))
    (containers : String → Prop) (env : Environment) : Prop where
  functions : env.functions.table.Knows f declared containers
  constructors : env.constructors.Spares f

/-- What the tables hold of the function `f` while a module is lowered. -/
structure LowerState.Knows (f : String) (declared : Option (Entry Signature))
    (containers : String → Prop) (moduleName : String) (loaded : List String)
    (s : LowerState) : Prop where
  env : s.env.Knows f declared containers
  moduleName : s.moduleName = moduleName
  loaded : s.loaded = loaded

/-! ### The last declaration -/

/-- What is declared after the declarations in a list, made in order: those that are called
`f` put what they give in the place of what was declared before, and others do not. -/
inductive Latest {δ : Type} (called : δ → Bool) (gives : δ → Option (Entry Signature) → Prop) :
    List δ → Option (Entry Signature) → Option (Entry Signature) → Prop
  | nil {before : Option (Entry Signature)} : Latest called gives [] before before
  | again {decl : δ} {decls : List δ} {before between after : Option (Entry Signature)} :
      called decl = true → gives decl between → Latest called gives decls between after →
      Latest called gives (decl :: decls) before after
  | other {decl : δ} {decls : List δ} {before after : Option (Entry Signature)} :
      called decl = false → Latest called gives decls before after →
      Latest called gives (decl :: decls) before after

namespace Latest

variable {δ : Type} {called : δ → Bool} {gives : δ → Option (Entry Signature) → Prop}
variable {decls : List δ} {before after : Option (Entry Signature)}

theorem eq_of_others (latest : Latest called gives decls before after)
    (others : ∀ decl ∈ decls, called decl = false) : after = before := by
  induction latest with
  | nil => rfl
  | again isCalled _ _ _ =>
      rw [others _ List.mem_cons_self] at isCalled
      cases isCalled
  | other _ _ ih => exact ih fun decl member => others decl (List.mem_cons_of_mem _ member)

/-- The last declaration decides. -/
theorem given (latest : Latest called gives decls before after) {decl : δ}
    (last : decls.findRev? called = some decl) : gives decl after := by
  induction latest with
  | nil => cases last
  | @again first decls _ _ _ isCalled given rest ih =>
      rw [List.findRev?] at last
      cases later : decls.findRev? called with
      | some other =>
          rw [later] at last ih
          exact ih last
      | none =>
          rw [later] at last
          simp only [isCalled, if_true, Option.some.injEq] at last
          obtain rfl := last
          have others : ∀ decl ∈ decls, called decl = false := by
            simpa [List.findRev?_eq_find?_reverse] using later
          exact rest.eq_of_others others ▸ given
  | @other first decls _ _ notCalled rest ih =>
      rw [List.findRev?] at last
      cases later : decls.findRev? called with
      | some other =>
          rw [later] at last ih
          exact ih last
      | none =>
          rw [later] at last
          simp [notCalled] at last

theorem imp {gives' : δ → Option (Entry Signature) → Prop}
    (weaker : ∀ {decl entry}, gives decl entry → gives' decl entry)
    (latest : Latest called gives decls before after) :
    Latest called gives' decls before after := by
  induction latest with
  | nil => exact .nil
  | again isCalled given _ ih => exact .again isCalled (weaker given) ih
  | other notCalled _ ih => exact .other notCalled ih

end Latest

/-! ### Loading -/

namespace Summary

open Stateful (Preserves)

variable {reg : Registration}

theorem knows_loadType (reg : Registration) (decl : TypeDecl) :
    Preserves (Environment.Knows f declared containers) (loadType reg decl) := by
  intro env knows
  rw [loadType_apply]
  rcases decl.infoIn? env.types with _ | _ | _ <;> exact ⟨knows.functions, knows.constructors⟩

theorem knows_loadSum (reg : Registration) {decl : SumDecl}
    (others : ∀ variant ∈ decl.variants, Undotted variant.name ∧ variant.name ≠ f) :
    Preserves (Environment.Knows f declared containers) (loadSum reg decl) := by
  intro env knows
  by_cases isSum : decl.kind = "sum"
  · rw [loadSum_apply reg isSum]
    cases given : decl.infoIn env.types with
    | error cause => exact knows
    | ok info =>
        obtain ⟨variants, sums, named⟩ := SumDecl.variants_of_infoIn given
        refine (fun registered => ⟨registered.1, registered.2⟩)
          (ConstructorTable.knows_registerSum knows.functions knows.constructors info ?_ reg)
        intro variants' sums' variant member
        obtain rfl := Option.some.inj (sums.symm.trans sums')
        have listed : variant.1 ∈ decl.variants.map Variant.name :=
          named ▸ List.mem_map_of_mem member
        obtain ⟨variant', member', same⟩ := List.mem_map.mp listed
        exact same ▸ others variant' member'
  · unfold loadSum
    rw [if_neg isSum]
    exact knows

/-- The signature that a summary gives a function among these types, registered as the
summary's module registers. -/
def Gives (f : String) (reg : Registration) (types : TypeTable) (decl : Function)
    (entry : Option (Entry Signature)) : Prop :=
  ∃ sig, decl.signatureIn types = .ok sig ∧ entry = some (.make f sig reg)

/-- Of the functions that are loaded in order under one name, the last one decides. -/
theorem latest_loadFunctions (f : String) {decls : List Function} {env after : Environment}
    (reachable : env.functions.table.Reachable)
    (ran : decls.forM (loadFunction reg) env = (.ok (), after)) :
    Latest (·.name == f) (Gives f reg env.types) decls (env.functions.table.declared? f)
      (after.functions.table.declared? f) := by
  induction decls generalizing env with
  | nil =>
      cases ran
      exact .nil
  | cons decl decls ih =>
      obtain ⟨_, between, first, ran⟩ := Stateful.ok_of_bind ran
      rw [loadFunction_apply] at first
      cases given : decl.signatureIn env.types with
      | error cause =>
          rw [given] at first
          cases first
      | ok sig =>
          rw [given] at first
          cases first
          have latest : Latest (·.name == f) (Gives f reg env.types) decls
              (if f = decl.name then some (.make decl.name sig reg)
                else env.functions.table.declared? f) (after.functions.table.declared? f) := by
            rw [← Function.name_of_signatureIn given, ← reachable.consistent.declared?_register]
            exact ih (reachable.after_register sig.name sig reg) ran
          by_cases called : decl.name = f
          · rw [called, if_pos rfl] at latest
            exact .again (by simpa using called) ⟨sig, given, rfl⟩ latest
          · rw [if_neg (Ne.symm called)] at latest
            exact .other (by simpa using called) latest

/-- Functions are loaded among the types that are there before them. -/
theorem types_loadFunctions {decls : List Function} {env after : Environment}
    (ran : decls.forM (loadFunction reg) env = (.ok (), after)) : after.types = env.types := by
  have kept : Preserves (fun other : Environment => other.types = env.types)
      (decls.forM (loadFunction reg)) := by
    refine .forM (fun decl other same => ?_) decls
    rw [loadFunction_apply]
    cases decl.signatureIn other.types <;> exact same
  have same := kept env rfl
  rwa [ran] at same

theorem latest_load (f : String) {summary : Summary} {env after : Environment}
    (atRest : env.AtRest) (ran : summary.load env = (.ok (), after)) :
    ∃ before, Latest (·.name == f) (Gives f (registration summary.moduleName) after.types)
      summary.exports.functions before (after.functions.table.declared? f) := by
  unfold load at ran
  obtain ⟨_, typed, first, ran⟩ := Stateful.ok_of_bind ran
  obtain ⟨_, summed, second, ran⟩ := Stateful.ok_of_bind ran
  have afterTypes := Preserves.forM
    (preserves_loadType Environment.lasting_atRest (registration summary.moduleName))
    summary.exports.types env atRest
  rw [first] at afterTypes
  have afterSums := Preserves.forM
    (preserves_loadSum Environment.lasting_atRest (registration summary.moduleName))
    summary.exports.sumTypes typed afterTypes
  rw [second] at afterSums
  exact ⟨_, types_loadFunctions ran ▸ latest_loadFunctions f afterSums.functions ran⟩

theorem knows_loadFunction (reg : Registration) {decl : Function} (undotted : Undotted decl.name) :
    Preserves (fun env => ∃ declared, env.Knows f declared containers)
      (loadFunction reg decl) := by
  rintro env ⟨declared, knows⟩
  rw [loadFunction_apply]
  cases given : decl.signatureIn env.types with
  | error cause => exact ⟨declared, knows⟩
  | ok sig =>
      have plain : Undotted sig.name := Function.name_of_signatureIn given ▸ undotted
      exact ⟨_, knows.functions.register plain sig reg, knows.constructors⟩

theorem knows_loadFunctions {decls : List Function}
    (undotted : ∀ decl ∈ decls, Undotted decl.name) {env after : Environment}
    (knows : env.Knows f declared containers)
    (ran : decls.forM (loadFunction reg) env = (.ok (), after)) :
    ∃ declared', after.Knows f declared' containers ∧
      Latest (·.name == f) (Gives f reg env.types) decls declared declared' := by
  have latest := latest_loadFunctions f knows.functions.reachable ran
  have kept := Preserves.forM_mem (fun decl member => knows_loadFunction reg (undotted decl member))
    env ⟨declared, knows⟩
  rw [ran] at kept
  obtain ⟨declared', knows'⟩ := kept
  rw [knows.functions.declared, knows'.functions.declared] at latest
  exact ⟨declared', knows', latest⟩

/-- Loading a summary declares `f` if the summary exports it, and keeps all else that is
known of it. -/
theorem knows_load {summary : Summary} {env after : Environment}
    (undotted : ∀ decl ∈ summary.exports.functions, Undotted decl.name)
    (others : ∀ decl ∈ summary.exports.sumTypes, ∀ variant ∈ decl.variants,
      Undotted variant.name ∧ variant.name ≠ f)
    (knows : env.Knows f declared containers) (ran : summary.load env = (.ok (), after)) :
    ∃ declared', after.Knows f declared' containers ∧
      Latest (·.name == f) (Gives f (registration summary.moduleName) after.types)
        summary.exports.functions declared declared' := by
  unfold load at ran
  obtain ⟨_, typed, first, ran⟩ := Stateful.ok_of_bind ran
  obtain ⟨_, summed, second, ran⟩ := Stateful.ok_of_bind ran
  have afterTypes := Preserves.forM (knows_loadType (registration summary.moduleName))
    summary.exports.types env knows
  rw [first] at afterTypes
  have afterSums := Preserves.forM_mem (fun decl member =>
    knows_loadSum (registration summary.moduleName) (others decl member)) typed afterTypes
  rw [second] at afterSums
  exact types_loadFunctions ran ▸ knows_loadFunctions undotted afterSums ran

end Summary

/-! ### Who declares `f` -/

/-- The names of the constructors that a declared type brings. -/
def Source.TypeDecl.constructorNames (decl : Source.TypeDecl) : List String :=
  match decl.body with
  | .sum variants => variants.map Prod.fst
  | _ => []

theorem Source.TypeDecl.constructorNames_of_sum {decl : Source.TypeDecl}
    {variants : List (String × List WrittenType)} (isSum : decl.body = .sum variants) :
    decl.constructorNames = variants.map Prod.fst := by
  rw [constructorNames, isSum]

/-- The summary of the imported module exports a function called `f`. -/
def Source.Import.exports (source : String → Option Summary) (f : String)
    (imported : Source.Import) : Bool :=
  (source imported.moduleName).any fun summary => summary.exports.functions.any (·.name == f)

/-- The entry is what the summary of the imported module declares as `f`, last if several
times, with the types that are known once the summary is loaded. -/
def Source.Import.Provides (source : String → Option Summary) (f : String)
    (imported : Source.Import) (env : Environment) (entry : Option (Entry Signature)) : Prop :=
  ∃ summary loaded decl, source imported.moduleName = some summary ∧
    summary.load.run env = (.ok (), loaded) ∧
    summary.exports.functions.findRev? (·.name == f) = some decl ∧
    Summary.Gives f (Summary.registration imported.moduleName) loaded.types decl entry

/-- The names under which a summary makes functions known have no dots, it is the summary of
the module it is asked for, and `f` is none of its constructors. -/
structure Source.Import.Plain (source : String → Option Summary) (f : String)
    (imported : Source.Import) : Prop where
  named : ∀ {summary}, source imported.moduleName = some summary →
    summary.moduleName = imported.moduleName
  functions : ∀ {summary}, source imported.moduleName = some summary →
    ∀ decl ∈ summary.exports.functions, Undotted decl.name
  constructors : ∀ {summary}, source imported.moduleName = some summary →
    ∀ decl ∈ summary.exports.sumTypes, ∀ variant ∈ decl.variants,
      Undotted variant.name ∧ variant.name ≠ f

/-- The imports of a module can be told apart by the names its members are reached by, names
of functions and constructors have no dots, and `f` is no constructor. -/
structure Source.Module.Plain (source : String → Option Summary) (f : String)
    (m : Source.Module) : Prop where
  apart : (m.imports.map fun imported => ModulePath.shortName imported.moduleName).Nodup
  imports : ∀ imported ∈ m.imports, imported.Plain source f
  functions : ∀ decl ∈ m.functions, Undotted decl.name
  constructors : ∀ decl ∈ m.types, ∀ name ∈ decl.constructorNames, Undotted name ∧ name ≠ f

theorem Source.Module.Plain.apart_names {source : String → Option Summary} {m : Source.Module}
    (plain : m.Plain source f) : (m.imports.map Source.Import.moduleName).Nodup := by
  have apart := List.pairwise_map.mp plain.apart
  refine List.pairwise_map.mpr (apart.imp fun different same => different ?_)
  rw [same]

/-! ### Steps that do not declare `f` -/

namespace Lower

variable {α β : Type} {moduleName : String} {loaded : List String}

/-- The computation keeps what is known of `f` while a module is lowered. -/
abbrev Keeps (f : String) (declared : Option (Entry Signature)) (containers : String → Prop)
    (moduleName : String) (loaded : List String) (x : Lower α) : Prop :=
  Maintains (LowerState.Knows f declared containers moduleName loaded) x

theorem Retags.keeps {x : Lower α} (retags : Retags x) :
    Keeps f declared containers moduleName loaded x := by
  intro c standard s knows
  have after := retags.frame s standard
  exact {
    env := ⟨after.table ▸ knows.env.functions, after.constructors ▸ knows.env.constructors⟩
    moduleName := (congrArg (·.moduleName) after).symm.trans knows.moduleName
    loaded := (congrArg (·.loaded) after).symm.trans knows.loaded }

/-- Changes of the environment that concern neither functions nor constructors. -/
theorem keeps_modifyTypes (change : Environment → TypeTable) :
    Keeps f declared containers moduleName loaded
      (modifyEnv fun env => { env with types := change env }) :=
  .modifyEnv fun _ knows =>
    ⟨⟨knows.env.functions, knows.env.constructors⟩, knows.moduleName, knows.loaded⟩

theorem keeps_registerPlaceholder (decl : Source.TypeDecl) :
    Keeps f declared containers moduleName loaded (registerPlaceholder decl) :=
  .get_bind fun _ _ => keeps_modifyTypes _

theorem keeps_registerType (decl : Source.TypeDecl) (ty : Ty) (typeParams : List TypeParam) :
    Keeps f declared containers moduleName loaded (registerType decl ty typeParams) :=
  .get_bind fun _ _ => (keeps_modifyTypes _).bind fun _ => .pure _

theorem keeps_registerConstructors (decl : Source.TypeDecl) {ty : Ty}
    (others : ∀ variants, ty.variants? = some variants →
      ∀ variant ∈ variants, Undotted variant.1 ∧ variant.1 ≠ f) (typeParams : List TypeParam) :
    Keeps f declared containers moduleName loaded (registerConstructors decl ty typeParams) := by
  refine .get_bind fun s _ => .modifyEnv fun t knows => ?_
  obtain ⟨functions, constructors⟩ := ConstructorTable.knows_registerSum knows.env.functions
    knows.env.constructors { name := decl.name, ty, typeParams } others _
  exact ⟨⟨functions, constructors⟩, knows.moduleName, knows.loaded⟩

theorem fst_of_resolveVariants {c : Context} {s : LowerState} {origin : Origin}
    {variants : List (String × List WrittenType)} {variants' : List (String × List Ty)}
    (ran : Yields c s (resolveVariants origin variants) variants') :
    variants'.map Prod.fst = variants.map Prod.fst := by
  induction variants generalizing s variants' with
  | nil =>
      cases ran
      rfl
  | cons variant variants ih =>
      rw [resolveVariants] at ran
      simp only [Yields.bind_iff] at ran
      obtain ⟨tys, -, rest, resolved, built⟩ := ran
      cases built
      rw [List.map_cons, List.map_cons, ih resolved]

theorem keeps_lowerTypeDecl {decl : Source.TypeDecl}
    (others : ∀ name ∈ decl.constructorNames, Undotted name ∧ name ≠ f) :
    Keeps f declared containers moduleName loaded (lowerTypeDecl decl) := by
  refine .dispatch (stage_typeDecl decl) ?_ _
  unfold lowerTypeAs
  rw [body_of_shape]
  refine (quiet_declaredParams _ _).retags.keeps.bind fun typeParams => ?_
  refine Maintains.bind_of (Q := fun ty => ∀ written, decl.body = .sum written →
      ∀ variants, ty.variants? = some variants →
        ∀ variant ∈ variants, Undotted variant.1 ∧ variant.1 ≠ f)
    (Quiet.retags ((quiet_resolveBody _ _ _).withTypeParams _)).keeps ?_ fun ty spared => ?_
  · intro c s ty standard ran written isSum variants sums variant member
    replace ran := ran.of_withTypeParams
    rw [isSum, resolveBody] at ran
    simp only [Yields.bind_iff] at ran
    obtain ⟨variants', resolved, built⟩ := ran
    cases built
    cases sums
    apply others
    rw [Source.TypeDecl.constructorNames_of_sum isSum, ← fst_of_resolveVariants resolved]
    exact List.mem_map_of_mem member
  · refine (keeps_registerType decl ty typeParams).bind fun lowered => ?_
    split
    · next written isSum =>
      refine Maintains.bind ?_ fun _ => .pure _
      exact keeps_registerConstructors decl (spared written isSum) typeParams
    · exact .pure _

/-! ### Imports -/

theorem qualifiedAliases_eq_memberKey {name shortName key : String} {importedAs : Option String}
    (listed : key ∈ ModulePath.qualifiedAliases name shortName importedAs) :
    ∃ container, key = memberKey container name := by
  unfold ModulePath.qualifiedAliases at listed
  dsimp only at listed
  split at listed
  · exact ⟨shortName, List.mem_singleton.mp listed⟩
  · exact ⟨shortName, List.mem_singleton.mp listed⟩
  · next other _ =>
    split at listed
    · exact ⟨shortName, List.mem_singleton.mp listed⟩
    · rcases List.mem_cons.mp listed with own | listed
      · exact ⟨shortName, own⟩
      · exact ⟨other, List.mem_singleton.mp listed⟩

theorem memberKey_mem_qualifiedAliases (name shortName : String) (importedAs : Option String) :
    memberKey shortName name ∈ ModulePath.qualifiedAliases name shortName importedAs := by
  unfold ModulePath.qualifiedAliases
  dsimp only
  split
  · exact List.mem_cons_self
  · exact List.mem_cons_self
  · split <;> exact List.mem_cons_self

/-- A key for a name that is made for `f` is one through which `f` is reached. -/
theorem knows_registerAlias {c : Context} {s t : LowerState} {origin : Origin}
    {container name : String} (undotted : Undotted name) (plain : Undotted f)
    (knows : s.Knows f declared containers moduleName loaded)
    (ran : registerAlias origin name (memberKey container name) c s = (.ok (), t)) :
    t.Knows f declared (fun other => containers other ∨ other = container ∧ name = f)
      moduleName loaded := by
  unfold registerAlias at ran
  rw [env_bind_apply] at ran
  cases accepted : s.env.functions.registerAlias (memberKey container name) name with
  | error error =>
      rw [accepted] at ran
      cases ran
  | ok functions =>
      rw [accepted] at ran
      cases ran
      have registered := knows.env.functions.registerAlias undotted plain
        (FunctionTable.table_of_registerAlias accepted)
      exact ⟨⟨registered, knows.env.constructors⟩, knows.moduleName, knows.loaded⟩

theorem keeps_registerAlias (origin : Origin) {container name : String}
    (undotted : Undotted name) (plain : Undotted f) :
    Keeps f declared containers moduleName loaded
      (registerAlias origin name (memberKey container name)) := by
  refine .env_bind fun s knows => ?_
  split
  · next functions accepted =>
    have registered := (knows.env.functions.registerAlias undotted plain
      (FunctionTable.table_of_registerAlias accepted)).mono fun _ reaches => .inl reaches
    exact .modifyEnv fun t knows =>
      ⟨⟨registered, knows.env.constructors⟩, knows.moduleName, knows.loaded⟩
  · exact .fail _ _

/-- Makes the keys under which functions of an imported module are reached. -/
def makeKeys (imported : Source.Import) (names : List String) : Lower Unit :=
  names.forM fun name =>
    (ModulePath.qualifiedAliases name (ModulePath.shortName imported.moduleName)
      imported.importedAs).forM (registerAlias imported.origin name)

theorem keeps_keys (imported : Source.Import) {name : String} (undotted : Undotted name)
    (plain : Undotted f) : Keeps f declared containers moduleName loaded
      ((ModulePath.qualifiedAliases name (ModulePath.shortName imported.moduleName)
        imported.importedAs).forM (registerAlias imported.origin name)) := by
  refine .forM_mem fun key listed => ?_
  obtain ⟨container, rfl⟩ := qualifiedAliases_eq_memberKey listed
  exact keeps_registerAlias _ undotted plain

theorem keeps_makeKeys (imported : Source.Import) {names : List String}
    (undotted : ∀ name ∈ names, Undotted name) (plain : Undotted f) :
    Keeps f declared containers moduleName loaded (makeKeys imported names) :=
  .forM_mem fun name member => keeps_keys imported (undotted name member) plain

/-- Once the keys for the functions of a module are made, `f` is reached through the module,
if it is one of them. -/
theorem knows_makeKeys {c : Context} {s t : LowerState} (standard : c.engine = .standard)
    {imported : Source.Import} {names : List String} (undotted : ∀ name ∈ names, Undotted name)
    (member : f ∈ names) (knows : s.Knows f declared containers moduleName loaded)
    (ran : makeKeys imported names c s = (.ok (), t)) :
    t.Knows f declared
      (fun other => containers other ∨ other = ModulePath.shortName imported.moduleName)
      moduleName loaded := by
  have plain := undotted f member
  refine Maintains.established member
    (fun name listed => keeps_keys imported (undotted name listed) plain)
    (fun name listed => keeps_keys imported (undotted name listed) plain) ?_ standard knows ran
  intro s t knows ran
  have keys {containers : String → Prop} : ∀ key ∈ ModulePath.qualifiedAliases f
      (ModulePath.shortName imported.moduleName) imported.importedAs,
      Keeps f declared containers moduleName loaded (registerAlias imported.origin f key) := by
    intro key listed
    obtain ⟨container, rfl⟩ := qualifiedAliases_eq_memberKey listed
    exact keeps_registerAlias _ plain plain
  refine Maintains.established (memberKey_mem_qualifiedAliases f _ imported.importedAs) keys keys
    ?_ standard knows ran
  intro s t knows ran
  have made := knows_registerAlias plain plain knows ran
  have functions := made.env.functions.mono fun _ => Or.imp_right fun same => ⟨same, rfl⟩
  exact ⟨⟨functions, made.env.constructors⟩, made.moduleName, made.loaded⟩

theorem mem_of_selectImports {c : Context} {s : LowerState} {imported : Source.Import}
    {functions types items names : List String}
    (ran : Yields c s (selectImports imported functions types items) names) :
    ∀ name ∈ names, name ∈ functions := by
  induction items generalizing names with
  | nil =>
      cases ran
      rintro _ ⟨⟩
  | cons item items ih =>
      rw [selectImports] at ran
      split at ran
      · next listed =>
        rw [Yields.bind_iff] at ran
        obtain ⟨rest, selected, built⟩ := ran
        cases built
        intro name member
        rcases List.mem_cons.mp member with rfl | member
        · exact listed
        · exact ih selected name member
      · split at ran
        · exact ih ran
        · cases ran

/-- Makes the functions of a loaded module known under the names they are reached by. -/
def reachImport (imported : Source.Import) : Lower Unit := do
  let env ← env
  let functions := env.functions.exportedFrom imported.moduleName
  let types := (env.types.inModule imported.moduleName true).map Entry.name
  unless functions.isEmpty && types.isEmpty do
    let names ←
      if imported.items.isEmpty then pure functions
      else selectImports imported functions types imported.items
    makeKeys imported names

theorem processImport_eq (imported : Source.Import) :
    processImport imported = (do loadImport imported; reachImport imported) :=
  rfl

theorem keeps_reachImport (imported : Source.Import) (plain : Undotted f) :
    Keeps f declared containers moduleName loaded (reachImport imported) := by
  refine .env_bind fun s knows => ?_
  have undotted : ∀ name ∈ s.env.functions.exportedFrom imported.moduleName, Undotted name :=
    fun name member => knows.env.functions.undotted_of_exported member
  dsimp only
  split
  · exact .pure ()
  · split
    · rw [pure_bind]
      exact keeps_makeKeys imported undotted plain
    · refine Maintains.bind_of (maintains_selectImports _ _ _ _)
        (fun _ ran => mem_of_selectImports ran) fun names selected => ?_
      exact keeps_makeKeys imported (fun name member => undotted name (selected name member)) plain

/-- After a whole import, `f` is reached through the module that exports it. -/
theorem knows_reachImport {c : Context} {s t : LowerState} (standard : c.engine = .standard)
    {imported : Source.Import} (whole : imported.items = [])
    (member : f ∈ s.env.functions.exportedFrom imported.moduleName)
    (knows : s.Knows f declared containers moduleName loaded)
    (ran : reachImport imported c s = (.ok (), t)) :
    t.Knows f declared
      (fun other => containers other ∨ other = ModulePath.shortName imported.moduleName)
      moduleName loaded := by
  have some_function : (s.env.functions.exportedFrom imported.moduleName).isEmpty = false := by
    rw [List.isEmpty_eq_false_iff]
    exact List.ne_nil_of_mem member
  unfold reachImport at ran
  rw [env_bind_apply] at ran
  simp only [some_function, Bool.false_and, Bool.false_eq_true, if_false, whole,
    List.isEmpty_nil, if_true, pure_bind] at ran
  have undotted : ∀ name ∈ s.env.functions.exportedFrom imported.moduleName, Undotted name :=
    fun name member => knows.env.functions.undotted_of_exported member
  exact knows_makeKeys standard undotted member knows ran

/-- Loading an import declares `f` if the imported module exports it. -/
theorem knows_loadImport {c : Context} {s t : LowerState} {source : String → Option Summary}
    (sourced : c.source = some source) {imported : Source.Import}
    (plain : imported.Plain source f) (unloaded : imported.moduleName ∉ loaded)
    (knows : s.Knows f declared containers moduleName loaded)
    (ran : loadImport imported c s = (.ok (), t)) :
    ∃ declared', t.Knows f declared' containers moduleName (imported.moduleName :: loaded) ∧
      if imported.exports source f then imported.Provides source f s.env declared'
      else declared' = declared := by
  obtain rfl := knows.loaded
  rw [loadImport_apply unloaded, sourced, Option.bind_some] at ran
  cases known : source imported.moduleName with
  | none =>
      rw [known] at ran
      cases ran
      refine ⟨declared, ⟨knows.env, knows.moduleName, rfl⟩, ?_⟩
      simp [Source.Import.exports, known]
  | some summary =>
      simp only [known] at ran
      rcases outcome : summary.load s.env with ⟨cause | _, env⟩
      · rw [outcome] at ran
        cases ran
      · rw [outcome] at ran
        cases ran
        obtain ⟨declared', knows', latest⟩ := Summary.knows_load (plain.functions known)
          (plain.constructors known) knows.env outcome
        rw [plain.named known] at latest
        refine ⟨declared', ⟨knows', knows.moduleName, rfl⟩, ?_⟩
        have exporting : imported.exports source f =
            summary.exports.functions.any (·.name == f) := by
          simp [Source.Import.exports, known]
        rw [exporting]
        split
        · next exported =>
          cases last : summary.exports.functions.findRev? (·.name == f) with
          | some decl => exact ⟨summary, env, decl, known, outcome, last, latest.given last⟩
          | none =>
              obtain ⟨decl, member, called⟩ := List.any_eq_true.mp exported
              rw [List.findRev?_eq_find?_reverse] at last
              exact absurd called (List.find?_eq_none.mp last decl (List.mem_reverse.mpr member))
        · next others =>
          refine latest.eq_of_others fun decl member => Bool.eq_false_iff.mpr ?_
          exact List.any_eq_false.mp (Bool.eq_false_iff.mpr others) decl member

/-- The containers through which `f` is reached after an import of a list. -/
def reachedBy (source : String → Option Summary) (f : String) (imports : List Source.Import)
    (container : String) : Prop :=
  ∃ imported ∈ imports, imported.items = [] ∧ imported.exports source f = true ∧
    container = ModulePath.shortName imported.moduleName

theorem knows_processImport {c : Context} {s t : LowerState} {source : String → Option Summary}
    (standard : c.engine = .standard) (sourced : c.source = some source)
    {imported : Source.Import} (plain : imported.Plain source f) (undotted : Undotted f)
    (unloaded : imported.moduleName ∉ loaded)
    (knows : s.Knows f declared containers moduleName loaded)
    (ran : processImport imported c s = (.ok (), t)) :
    ∃ declared', t.Knows f declared'
        (fun other => containers other ∨ reachedBy source f [imported] other) moduleName
        (imported.moduleName :: loaded) ∧
      if imported.exports source f then imported.Provides source f s.env declared'
      else declared' = declared := by
  rw [processImport_eq] at ran
  obtain ⟨_, r, loads, reaches⟩ := ok_of_bind ran
  obtain ⟨declared', knows', step⟩ := knows_loadImport sourced plain unloaded knows loads
  refine ⟨declared', ?_, step⟩
  by_cases new : imported.items = [] ∧ imported.exports source f = true
  · obtain ⟨whole, exported⟩ := new
    rw [if_pos exported] at step
    have member : f ∈ r.env.functions.exportedFrom imported.moduleName := by
      obtain ⟨summary, env, decl, -, -, -, sig, -, rfl⟩ := step
      refine (FunctionTable.mem_exportedFrom knows'.env.functions.reachable).mpr ?_
      exact ⟨_, knows'.env.functions.declared, rfl, rfl⟩
    have reached := knows_reachImport standard whole member knows' reaches
    refine ⟨⟨reached.env.functions.mono ?_, reached.env.constructors⟩, reached.moduleName,
      reached.loaded⟩
    rintro other (old | ⟨_, member, -, -, rfl⟩)
    · exact .inl old
    · rw [List.mem_singleton.mp member]
      exact .inr rfl
  · have kept := keeps_reachImport imported undotted c standard r knows'
    rw [reaches] at kept
    refine ⟨⟨kept.env.functions.mono ?_, kept.env.constructors⟩, kept.moduleName, kept.loaded⟩
    rintro other (old | ⟨_, member, whole, exported, rfl⟩)
    · exact old
    · rw [List.mem_singleton.mp member] at whole exported
      exact absurd ⟨whole, exported⟩ new

/-- The entry is provided by one of the imports, in the state that those before it lead to. -/
def ProvidedIn (c : Context) (s : LowerState) (source : String → Option Summary) (f : String)
    (imports : List Source.Import) (imported : Source.Import)
    (entry : Option (Entry Signature)) : Prop :=
  ∃ earlier later reached, imports = earlier ++ imported :: later ∧
    earlier.forM processImport c s = (.ok (), reached) ∧
    imported.Provides source f reached.env entry

theorem ProvidedIn.cons {c : Context} {s r : LowerState} {source : String → Option Summary}
    {first : Source.Import} (ran : processImport first c s = (.ok (), r))
    {imports : List Source.Import} {imported : Source.Import} {entry : Option (Entry Signature)}
    (provided : ProvidedIn c r source f imports imported entry) :
    ProvidedIn c s source f (first :: imports) imported entry := by
  obtain ⟨earlier, later, reached, rfl, leads, provides⟩ := provided
  refine ⟨first :: earlier, later, reached, rfl, ?_, provides⟩
  show (processImport first >>= fun _ => earlier.forM processImport) c s = _
  rw [bind_apply, ran]
  exact leads

theorem knows_processImports {c : Context} {s t : LowerState} {source : String → Option Summary}
    (standard : c.engine = .standard) (sourced : c.source = some source)
    {imports : List Source.Import} (plain : ∀ imported ∈ imports, imported.Plain source f)
    (undotted : Undotted f) (apart : (imports.map Source.Import.moduleName).Nodup)
    (unloaded : ∀ imported ∈ imports, imported.moduleName ∉ loaded)
    (knows : s.Knows f declared containers moduleName loaded)
    (ran : imports.forM processImport c s = (.ok (), t)) :
    ∃ declared' loaded', t.Knows f declared'
        (fun other => containers other ∨ reachedBy source f imports other) moduleName loaded' ∧
      Latest (·.exports source f) (ProvidedIn c s source f imports) imports declared
        declared' := by
  induction imports generalizing s declared containers loaded with
  | nil =>
      cases ran
      refine ⟨declared, loaded, ⟨⟨knows.env.functions.mono ?_, knows.env.constructors⟩,
        knows.moduleName, knows.loaded⟩, .nil⟩
      rintro other (old | ⟨_, ⟨⟩, -⟩)
      exact old
  | cons imported imports ih =>
      obtain ⟨_, r, first, rest⟩ := ok_of_bind ran
      obtain ⟨fresh, apart⟩ := List.nodup_cons.mp apart
      obtain ⟨declared₁, knows₁, step⟩ := knows_processImport standard sourced
        (plain imported List.mem_cons_self) undotted (unloaded imported List.mem_cons_self)
        knows first
      have unloaded₁ : ∀ later ∈ imports, later.moduleName ∉ imported.moduleName :: loaded := by
        intro later member listed
        rcases List.mem_cons.mp listed with same | listed
        · exact fresh (same ▸ List.mem_map_of_mem member)
        · exact unloaded later (List.mem_cons_of_mem _ member) listed
      obtain ⟨declared', loaded', knows', latest⟩ := ih
        (fun later member => plain later (List.mem_cons_of_mem _ member)) apart unloaded₁ knows₁
        rest
      refine ⟨declared', loaded', ⟨⟨knows'.env.functions.mono ?_, knows'.env.constructors⟩,
        knows'.moduleName, knows'.loaded⟩, ?_⟩
      · rintro other (old | ⟨reached, member, new⟩)
        · exact .inl (.inl old)
        · rcases List.mem_cons.mp member with rfl | member
          · exact .inl (.inr ⟨reached, List.mem_cons_self, new⟩)
          · exact .inr ⟨reached, member, new⟩
      · replace latest := latest.imp (ProvidedIn.cons first)
        cases exported : imported.exports source f with
        | true =>
            rw [exported, if_pos rfl] at step
            exact .again exported ⟨[], imports, s, rfl, rfl, step⟩ latest
        | false =>
            rw [exported, if_neg Bool.false_ne_true] at step
            exact .other exported (step ▸ latest)

/-! ### Declarations of the importing module -/

/-- The entry is what a function is declared as in a module, with the types there are in a
state. -/
def DeclaredAs (c : Context) (s : LowerState) (f moduleName : String) (decl : Source.Function)
    (entry : Option (Entry Signature)) : Prop :=
  ∃ sig reg, Yields c s (signatureOf decl) sig ∧ reg.moduleName = some moduleName ∧
    entry = some (.make f sig reg)

/-- A function whose declaration succeeds has a signature, and nothing else happens than that
it is registered. -/
theorem declared_of_declare {c : Context} {s t : LowerState} (standard : c.engine = .standard)
    {decl : Source.Function} (ran : declare decl c s = (.ok (), t)) :
    ∃ sig, Yields c s (signatureOf decl) sig ∧ sig.name = decl.name ∧ t = s.declared decl sig := by
  cases resolved : (signatureOf decl c s).1 with
  | error fault =>
      obtain ⟨after, refused⟩ := declare_of_error resolved
      rw [ran] at refused
      cases refused
  | ok sig =>
      have accepted := declare_of_ok standard resolved
      rw [ran] at accepted
      cases accepted
      exact ⟨sig, resolved, name_of_signatureOf standard resolved, rfl⟩

/-- What a function is declared as does not depend on which others are declared already. -/
theorem yields_signatureOf_declared {c : Context} {s : LowerState}
    (standard : c.engine = .standard) {decl other : Source.Function} {sig sig' : Signature} :
    Yields c (s.declared decl sig) (signatureOf other) sig' ↔
      Yields c s (signatureOf other) sig' := by
  unfold Yields
  rw [signatureOf_declared standard s other decl sig]

theorem yields_signatureOf_declares {c : Context} {s t : LowerState}
    (standard : c.engine = .standard) {decls : List Source.Function}
    (ran : decls.forM declare c s = (.ok (), t)) {other : Source.Function} {sig : Signature} :
    Yields c t (signatureOf other) sig ↔ Yields c s (signatureOf other) sig := by
  induction decls generalizing s with
  | nil =>
      cases ran
      rfl
  | cons decl decls ih =>
      obtain ⟨_, r, first, rest⟩ := ok_of_bind ran
      obtain ⟨own, -, -, rfl⟩ := declared_of_declare standard first
      exact (ih rest).trans (yields_signatureOf_declared standard)

theorem knows_declares {c : Context} {s t : LowerState} (standard : c.engine = .standard)
    {decls : List Source.Function} (undotted : ∀ decl ∈ decls, Undotted decl.name)
    (knows : s.Knows f declared containers moduleName loaded)
    (ran : decls.forM declare c s = (.ok (), t)) :
    ∃ declared', t.Knows f declared' containers moduleName loaded ∧
      Latest (·.name == f) (DeclaredAs c s f moduleName) decls declared declared' := by
  induction decls generalizing s declared with
  | nil =>
      cases ran
      exact ⟨declared, knows, .nil⟩
  | cons decl decls ih =>
      obtain ⟨_, r, first, rest⟩ := ok_of_bind ran
      obtain ⟨sig, resolved, named, rfl⟩ := declared_of_declare standard first
      have plain : Undotted sig.name := named ▸ undotted decl List.mem_cons_self
      have registered : (s.declared decl sig).Knows f _ containers moduleName loaded :=
        ⟨⟨knows.env.functions.register plain sig _, knows.env.constructors⟩,
          knows.moduleName, knows.loaded⟩
      obtain ⟨declared', knows', latest⟩ := ih
        (fun decl member => undotted decl (List.mem_cons_of_mem _ member)) registered rest
      have unchanged : DeclaredAs c (s.declared decl sig) f moduleName =
          DeclaredAs c s f moduleName := by
        funext other entry
        simp only [DeclaredAs, yields_signatureOf_declared standard]
      rw [unchanged] at latest
      refine ⟨declared', knows', ?_⟩
      by_cases called : decl.name = f
      · rw [named, called, if_pos rfl] at latest
        refine .again (by simpa using called) ?_ latest
        exact ⟨sig, _, resolved, congrArg some knows.moduleName, rfl⟩
      · rw [named, if_neg (Ne.symm called)] at latest
        exact .other (by simpa using called) latest

theorem length_of_resolveAll {c : Context} {s : LowerState} {origin : Origin}
    {written : List WrittenType} {tys : List Ty}
    (ran : Yields c s (resolveAll origin written) tys) : tys.length = written.length := by
  induction written generalizing s tys with
  | nil =>
      rw [resolveAll] at ran
      cases ran
      rfl
  | cons ty written ih =>
      rw [resolveAll] at ran
      simp only [Yields.bind_iff] at ran
      obtain ⟨first, -, rest, resolved, built⟩ := ran
      cases built
      rw [List.length_cons, List.length_cons, ih resolved]

/-- A lowered function has the signature it was declared with. -/
theorem signature_of_lowerFunction {c : Context} {s : LowerState} (standard : c.engine = .standard)
    {decl : Source.Function} {lowered : Typed.Function}
    (ran : Yields c s (lowerFunction decl) lowered) :
    Yields c s (signatureOf decl) lowered.signature ∧ lowered.name = decl.name := by
  replace ran := ran.of_dispatch rfl standard
  rw [lowerFunctionForm_eq] at ran
  obtain ⟨sig, resolved, ran⟩ := ran.bind_quiet (quiet_signatureOf decl) standard
  obtain ⟨body, -, ran⟩ := ran.bind_quiet (quiet_lowerBody? decl sig) standard
  obtain rfl := typed_of_tagEffects ran
  refine ⟨?_, rfl⟩
  have given := resolved
  unfold signatureOf at resolved
  obtain ⟨typeParams, -, resolved⟩ := resolved.bind_quiet (quiet_declaredParams _ _) standard
  replace resolved := resolved.of_withTypeParams
  simp only [Yields.bind_iff] at resolved
  obtain ⟨params, inputs, result, -, built⟩ := resolved
  cases built
  have arity := length_of_resolveAll inputs
  rw [List.length_map] at arity
  have same : (typedParams decl ⟨decl.name, params, result.getD .void, typeParams⟩).map
      Typed.Param.ty = params := by
    unfold typedParams
    rw [List.map_map]
    exact List.map_snd_zip (Nat.le_of_eq arity)
  rw [Typed.Function.signature]
  exact same.symm ▸ given

/-- The last element that has a property, in lists that are related element by element. -/
theorem rel_findRev? {R : α → β → Prop} {p : α → Bool} {q : β → Bool}
    (agree : ∀ {a b}, R a b → p a = q b) {l : List α} {l' : List β}
    (related : List.Forall₂ R l l') : Option.Rel R (l.findRev? p) (l'.findRev? q) := by
  induction related with
  | nil => exact .none
  | @cons a b l l' first rest ih =>
      rw [List.findRev?, List.findRev?]
      generalize l.findRev? p = later at ih ⊢
      generalize l'.findRev? q = later' at ih ⊢
      cases ih with
      | some related => exact .some related
      | none =>
          dsimp only
          rw [agree first]
          split
          · exact .some first
          · exact .none

theorem signatures_of_lowerFunctions {c : Context} {s t : LowerState}
    (standard : c.engine = .standard) {decls : List Source.Function}
    {functions : List Typed.Function} (ran : decls.mapM lowerFunction c s = (.ok functions, t)) :
    List.Forall₂ (fun decl function => function.name = decl.name ∧
      Yields c s (signatureOf decl) function.signature) decls functions := by
  refine forall₂_of_mapM (P := fun r => s.Retagged r) ?_ rfl ran
  intro decl function r r' retagged ran
  obtain ⟨resolved, named⟩ := signature_of_lowerFunction standard (congrArg Prod.fst ran)
  have frame := (retags_lowerFunction decl).frame r standard
  rw [ran] at frame
  have quiet : Quiet FunctionTable.Alike (signatureOf decl) := quiet_signatureOf decl
  exact ⟨⟨named, (quiet.congr (.refl standard) retagged.alike).1.trans resolved⟩,
    retagged.trans frame⟩

/-- What is known of `f` once a module is lowered. -/
theorem knows_lowerModule {c : Context} {source : String → Option Summary}
    (standard : c.engine = .standard) (sourced : c.source = some source) {m : Source.Module}
    (plain : m.Plain source f) (undotted : Undotted f) {lowered : Typed.Module}
    {after : LowerState} (ran : lowerModule m c {} = (.ok lowered, after)) :
    let entered : LowerState := {
      moduleName := m.name
      namespaceName := ModulePath.deriveNamespace (some m.name) }
    ∃ imported declared s loaded,
      after.Knows f declared (reachedBy source f m.imports) m.name loaded ∧
      Latest (·.exports source f) (ProvidedIn c entered source f m.imports) m.imports none
        imported ∧
      Latest (·.name == f) (DeclaredAs c s f m.name) m.functions imported declared ∧
      List.Forall₂ (fun decl function => function.name = decl.name ∧
        Yields c s (signatureOf decl) function.signature) m.functions lowered.functions := by
  intro entered
  obtain ⟨s₁, s₂, s₃, s₄, imports, placeholders, lowers, declares, bodies⟩ :=
    passes_of_lowerModule ran
  -- First the imports, then the types, none of which is called `f`.
  have start : entered.Knows f none (fun _ => False) m.name [] :=
    ⟨⟨.empty f, by rintro _ _ ⟨⟩⟩, rfl, rfl⟩
  obtain ⟨declared, loaded, knows, latest⟩ := knows_processImports standard sourced plain.imports
    undotted plain.apart_names (by rintro _ _ ⟨⟩) start imports
  have knows₂ := Maintains.forM keeps_registerPlaceholder m.types c standard s₁ knows
  rw [placeholders] at knows₂
  have knows₃ := Maintains.mapM_mem (fun decl member =>
    keeps_lowerTypeDecl (plain.constructors decl member)) c standard s₂ knows₂
  rw [lowers] at knows₃
  -- Then the functions, whose bodies change nothing.
  obtain ⟨declared', knows₄, latest'⟩ := knows_declares standard plain.functions knows₃ declares
  have knows₅ := (Retags.mapM retags_lowerFunction m.functions).keeps c standard s₄ knows₄
  rw [bodies] at knows₅
  refine ⟨declared, declared', s₃, loaded, ?_, latest, latest', ?_⟩
  · exact ⟨⟨knows₅.env.functions.mono fun _ => .inr, knows₅.env.constructors⟩,
      knows₅.moduleName, knows₅.loaded⟩
  · have resolved := signatures_of_lowerFunctions standard bodies
    exact resolved.imp fun _ _ both =>
      ⟨both.1, (yields_signatureOf_declares standard declares).mp both.2⟩

/-! ### Qualified names -/

/-- Where a module imports another one as a whole that exports a function `f`, the qualified
name of `f` refers to the function `f` that was declared last: the importing module's own, if
it declares one, and otherwise that of the last import that exports one, with the signature that
its summary gives it among the types that are known once the imports before it are processed and
the summary is loaded. It refers to the function of the module that it names exactly if that was
the last to declare `f`. -/
theorem qualified_name_denotes_last_declared (config : Config) {source : String → Option Summary}
    {m : Source.Module} {lowered : Typed.Module} {after : LowerState}
    (accepted : (lowerModule m).run { config, source := some source } {} = (.ok lowered, after))
    {f : String} (plain : m.Plain source f) {imported : Source.Import}
    (member : imported ∈ m.imports) (whole : imported.items = [])
    (exported : imported.exports source f = true) :
    let entered : LowerState := {
      moduleName := m.name
      namespaceName := ModulePath.deriveNamespace (some m.name) }
    ∃ entry, after.env.functions.member? (ModulePath.shortName imported.moduleName) f =
        some entry ∧ entry.name = f ∧
      (∀ function, lowered.functions.findRev? (·.name == f) = some function →
        entry.moduleName = some m.name ∧ entry.value = function.signature) ∧
      (lowered.functions.findRev? (·.name == f) = none →
        ∀ provider, m.imports.findRev? (·.exports source f) = some provider →
          entry.moduleName = some provider.moduleName ∧
          entry.exported = true ∧ entry.external = true ∧
          ∃ earlier later reached summary loaded decl,
            m.imports = earlier ++ provider :: later ∧
            (earlier.forM processImport).run { config, source := some source } entered =
              (.ok (), reached) ∧
            source provider.moduleName = some summary ∧
            summary.load.run reached.env = (.ok (), loaded) ∧
            summary.exports.functions.findRev? (·.name == f) = some decl ∧
            decl.signatureIn loaded.types = .ok entry.value) := by
  intro entered
  have undotted : Undotted f := by
    obtain ⟨summary, known, declares⟩ := (Option.any_eq_true _ _).mp exported
    obtain ⟨decl, listed, called⟩ := List.any_eq_true.mp declares
    exact eq_of_beq called ▸ (plain.imports imported member).functions known decl listed
  obtain ⟨gathered, declared, s, loaded, knows, latest, latest', related⟩ :=
    knows_lowerModule rfl rfl plain undotted accepted
  have table := knows.env.functions
  have reached := table.reached _ ⟨imported, member, whole, exported, rfl⟩
  obtain ⟨entry, held⟩ := table.reachable.consistent.registered_of_canonicalName? reached
  obtain rfl : some entry.bare = declared := by
    rw [← table.declared, SymbolTable.declared?, held, Option.map_some]
  have counterpart := rel_findRev? (p := (·.name == f)) (q := (·.name == f))
    (fun both => by rw [both.1]) related
  refine ⟨entry, ?_, table.reachable.consistent.named held, ?_, ?_⟩
  · rw [FunctionTable.member?_eq, SymbolTable.get?, reached, Option.bind_some, held,
      Option.some_or]
  · intro function last
    rw [last] at counterpart
    obtain ⟨decl, declares, -, signature⟩ : ∃ decl, m.functions.findRev? (·.name == f) = some decl ∧
        function.name = decl.name ∧
          Yields { config, source := some source } s (signatureOf decl) function.signature := by
      generalize m.functions.findRev? (·.name == f) = found at counterpart ⊢
      cases counterpart with
      | some related => exact ⟨_, rfl, related⟩
    obtain ⟨sig, reg, resolved, owned, made⟩ := latest'.given declares
    have bare := Option.some.inj made
    have same : function.signature = sig := Except.ok.inj (signature.symm.trans resolved)
    exact ⟨(congrArg Entry.moduleName bare).trans owned,
      (congrArg Entry.value bare).trans same.symm⟩
  · intro undeclared provider last
    rw [undeclared] at counterpart
    have others : m.functions.findRev? (·.name == f) = none := by
      generalize m.functions.findRev? (·.name == f) = found at counterpart ⊢
      cases counterpart with
      | none => rfl
    rw [List.findRev?_eq_find?_reverse, List.find?_eq_none] at others
    obtain rfl := latest'.eq_of_others fun decl listed =>
      Bool.eq_false_iff.mpr (others decl (List.mem_reverse.mpr listed))
    obtain ⟨earlier, later, r, split, leads, summary, env, decl, known, loads, lastDecl, sig,
      given, made⟩ := latest.given last
    have bare := Option.some.inj made
    have value : entry.value = sig := congrArg Entry.value bare
    exact ⟨congrArg Entry.moduleName bare, congrArg Entry.exported bare,
      congrArg Entry.external bare, earlier, later, r, summary, env, decl, split, leads, known,
      loads, lastDecl, value ▸ given⟩

theorem qualified_name_denotes_last_imported :
    let text : Summary := {
      moduleName := "Text"
      exports := { functions := [{
        name := "add"
        params := [⟨"a", "string"⟩, ⟨"b", "string"⟩]
        result := "string" }] } }
    let math : Summary := {
      moduleName := "Math"
      exports := { functions := [{
        name := "add"
        params := [⟨"a", "i32"⟩, ⟨"b", "i32"⟩]
        result := "i32" }] } }
    let total : Source.Function := {
      name := "total"
      result := some (.named "i32")
      body := some ⟨.call ⟨.member ⟨.var "Math", none⟩ "add", none⟩
        [⟨.literal (.int 1), none⟩, ⟨.literal (.int 2), none⟩], none⟩ }
    let m : Source.Module := {
      name := "main"
      imports := [{ moduleName := "Text" }, { moduleName := "Math" }]
      items := [.function total] }
    let source := fun name => [text, math].find? (·.moduleName == name)
    ∃ lowered after, (lowerModule m).run { source := some source } {} = (.ok lowered, after) ∧
      ∃ entry, after.env.functions.member? "Text" "add" = some entry ∧
        entry.moduleName = some "Math" ∧ entry.external = true := by
  intro text math total m source
  have names : ((lowerModule m).run { source := some source } {}).1.toOption.map
      (·.functions.map (·.name)) = some ["total"] := by decide +kernel
  rcases accepted : (lowerModule m).run { source := some source } {} with ⟨_ | lowered, after⟩
  · rw [accepted] at names
    cases names
  rw [accepted] at names
  have undeclared : lowered.functions.findRev? (·.name == "add") = none := by
    rw [List.findRev?_eq_find?_reverse, List.find?_eq_none]
    intro function listed called
    have listed : function.name ∈ ["total"] :=
      Option.some.inj names ▸ List.mem_map_of_mem (List.mem_reverse.mp listed)
    grind
  have plain : m.Plain source "add" := by
    refine ⟨by decide +kernel, ?_, by decide, by decide⟩
    intro imported listed
    have known : ∀ {summary}, source imported.moduleName = some summary →
        summary = text ∨ summary = math := by
      intro summary found
      simpa using List.mem_of_find?_eq_some found
    constructor
    · intro summary found
      have named := List.find?_some found
      exact eq_of_beq named
    · intro summary found
      rcases known found with rfl | rfl <;> decide
    · intro summary found
      rcases known found with rfl | rfl <;> decide
  obtain ⟨entry, found, -, -, imported⟩ :=
    qualified_name_denotes_last_declared {} accepted plain (List.mem_cons_self ..) rfl
      (by decide +kernel)
  obtain ⟨owner, -, external, -⟩ := imported undeclared { moduleName := "Math" } rfl
  exact ⟨lowered, after, rfl, entry, found, owner, external⟩

/-- A module that declares a function of its own hides the imported one behind it: the name
`Math.add` then refers to the function of the importing module. -/
theorem qualified_name_hidden_by_declaration :
    let math : Summary := {
      moduleName := "Math"
      exports := { functions := [{
        name := "add"
        params := [⟨"a", "i32"⟩, ⟨"b", "i32"⟩]
        result := "i32" }] } }
    let add : Source.Function := {
      name := "add"
      params := [{ name := "text", ty := .named "string" }]
      result := some (.named "string")
      body := some ⟨.var "text", none⟩ }
    let m : Source.Module :=
      { name := "main", imports := [{ moduleName := "Math" }], items := [.function add] }
    let source := fun name => if name = "Math" then some math else none
    let ran := (lowerModule m).run { source := some source } {}
    ran.1.isOk = true ∧
      (ran.2.env.functions.member? "Math" "add").map
          (fun entry => (entry.moduleName, entry.external, entry.value.toTy.text)) =
        some (some "main", false, "(string) -> string") := by
  decide +kernel

end Lower

end ModuleTyping
