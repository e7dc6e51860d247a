import ModuleTyping.Proofs.Lowering.Imports
import ModuleTyping.Proofs.Summary.Encoding
import ModuleTyping.Proofs.Summary.Fidelity

/-!
# What other modules see of a module

A module that is lowered on its own fills the tables with what it declares and nothing else
(`Environment.Defines`). Its summary, written as JSON, read back and loaded elsewhere, makes
the exported part of that known again: signatures are written the same way on both sides,
and the sums list the same constructors.
-/

namespace ModuleTyping

/-- The functions and sums that a module knows are those that it declares. -/
def Environment.Defines (signatures : List Signature) (sums : List (String × List String))
    (env : Environment) : Prop :=
  Declares (fun sig entry => entry.value = sig) signatures sums env.functions env.constructors

/-! ### Declared types -/

namespace Elaborates.TypeDecl

variable {env : Environment} {decl : Source.TypeDecl} {lowered : Typed.TypeDecl}

/-- A declared sum is lowered to a sum of its name, with constructors of the same names. -/
theorem isSum (elaborated : Elaborates.TypeDecl env decl lowered)
    {written : List (String × List WrittenType)} (isSum : decl.body = .sum written) :
    ∃ variants, lowered.ty = .sum lowered.name variants ∧
      variants.map Prod.fst = written.map Prod.fst := by
  have body := elaborated.body
  rw [isSum, ← elaborated.name] at body
  generalize lowered.ty = ty at body
  cases body with
  | sum each =>
      exact ⟨_, rfl, map_eq_map_iff.mpr (each.flip.imp fun _ _ both => both.1)⟩

/-- A declaration that is neither a sum nor another name for a type has no constructors. -/
theorem variants?_of_other (elaborated : Elaborates.TypeDecl env decl lowered)
    (own : ∀ target, decl.body ≠ .synonym target) (other : ∀ written, decl.body ≠ .sum written) :
    lowered.variants? = none := by
  have body := elaborated.body
  unfold Typed.TypeDecl.variants?
  generalize lowered.ty = ty at body
  generalize decl.body = form at body own other
  cases body with
  | record => rfl
  | abstract => rfl
  | sum => exact absurd rfl (other _)
  | synonym => exact absurd rfl (own _)

/-- A declaration that has constructors and does not take them from another one is a sum of
its own. -/
theorem own_sum (elaborated : Elaborates.TypeDecl env decl lowered)
    (own : ∀ target, decl.body ≠ .synonym target) {variants : List (String × List Ty)}
    (given : lowered.variants? = some variants) : lowered.ty = .sum lowered.name variants := by
  by_cases isSum : ∃ written, decl.body = .sum written
  · obtain ⟨written, isSum⟩ := isSum
    obtain ⟨variants', shape, -⟩ := elaborated.isSum isSum
    rw [Typed.TypeDecl.variants?_of_sum shape] at given
    rw [shape, Option.some.inj given]
  · rw [elaborated.variants?_of_other own fun written same => isSum ⟨written, same⟩] at given
    cases given

theorem names_constructors (elaborated : Elaborates.TypeDecl env decl lowered)
    (own : ∀ target, decl.body ≠ .synonym target) :
    lowered.constructors.map Signature.name = decl.constructorNames := by
  by_cases isSum : ∃ written, decl.body = .sum written
  · obtain ⟨written, isSum⟩ := isSum
    obtain ⟨variants, shape, names⟩ := elaborated.isSum isSum
    rw [Typed.TypeDecl.constructors_of_sum shape, Source.TypeDecl.constructorNames_of_sum isSum,
      ← names, List.map_map]
    rfl
  · have other : ∀ written, decl.body ≠ .sum written := fun written same => isSum ⟨written, same⟩
    rw [Typed.TypeDecl.constructors, elaborated.variants?_of_other own other,
      Source.TypeDecl.constructorNames]
    split
    · next written same => exact absurd same (other written)
    · rfl

end Elaborates.TypeDecl

namespace Lower

variable {c : Context} {s t : LowerState} {signatures : List Signature}
variable {sums : List (String × List String)}

/-! ### The defining pass -/

theorem Retags.defines {α : Type} {x : Lower α} (retags : Retags x) :
    Maintains (fun s => s.env.Defines signatures sums) x := by
  intro c standard s defines
  have after := retags.frame s standard
  exact ⟨after.table ▸ defines.functions, after.constructors ▸ defines.listed,
    after.constructors ▸ defines.unlisted⟩

theorem defines_registerPlaceholder (decl : Source.TypeDecl) :
    Maintains (fun s => s.env.Defines signatures sums) (registerPlaceholder decl) :=
  .get_bind fun _ _ => .modifyEnv fun _ defines => defines

/-- What is listed for a declared sum: its constructors as functions, and their names. -/
def ListedIn (signatures : List Signature) (sums : List (String × List String))
    (decl : Source.TypeDecl) (lowered : Typed.TypeDecl) : Prop :=
  ∀ written, decl.body = .sum written →
    lowered.constructors ⊆ signatures ∧ lowered.sums ⊆ sums

theorem ListedIn.mono {signatures' : List Signature} {sums' : List (String × List String)}
    {decl : Source.TypeDecl} {lowered : Typed.TypeDecl}
    (listed : ListedIn signatures sums decl lowered) (more : signatures ⊆ signatures')
    (more' : sums ⊆ sums') : ListedIn signatures' sums' decl lowered := by
  intro written isSum
  obtain ⟨constructors, sums⟩ := listed written isSum
  exact ⟨List.Subset.trans constructors more, List.Subset.trans sums more'⟩

/-- A declared type adds its constructors, if it is a sum, and nothing otherwise. -/
theorem defines_lowerTypeDecl (standard : c.engine = .standard) {env : Environment}
    {decl : Source.TypeDecl} {lowered : Typed.TypeDecl}
    (elaborated : Elaborates.TypeDecl env decl lowered)
    (defines : s.env.Defines signatures sums) (new : decl.name ∉ sums.map Prod.fst)
    (distinct : (signatures.map Signature.name ++ decl.constructorNames).Nodup)
    (ran : lowerTypeDecl decl c s = (.ok lowered, t)) :
    ∃ added addedSums, t.env.Defines (signatures ++ added) (sums ++ addedSums) ∧
      added.map Signature.name = decl.constructorNames ∧
      (addedSums.map Prod.fst).Sublist [decl.name] ∧ ListedIn added addedSums decl lowered := by
  obtain ⟨-, -, -, -, -, rfl⟩ := ok_of_lowerTypeDecl standard ran
  unfold LowerState.withDeclaration
  cases body : decl.body with
  | sum written =>
      have names := elaborated.names_constructors (by rw [body]; nofun)
      obtain ⟨variants, shape, -⟩ := elaborated.isSum body
      have listed := Typed.TypeDecl.sums_of_sum shape
      have constructors := Typed.TypeDecl.constructors_of_sum shape
      have isSum : lowered.info.ty.variants? = some variants := by
        rw [Typed.TypeDecl.info, shape]
        rfl
      rw [← names, ← List.map_append] at distinct
      rw [← elaborated.name] at new
      refine ⟨lowered.constructors, lowered.sums, ?_, names, ?_, fun _ _ => ?_⟩
      · -- Registering the type itself concerns neither functions nor constructors.
        rw [listed]
        refine Declares.registerSum defines isSum new distinct ?_
        rw [constructors, List.forall₂_same]
        exact fun _ _ => ⟨rfl, rfl⟩
      · rw [listed, elaborated.name]
        exact .refl _
      · exact ⟨List.Subset.refl _, List.Subset.refl _⟩
  | _ =>
      refine ⟨[], [], ?_, ?_, List.nil_sublist _, ?_⟩
      · rw [List.append_nil, List.append_nil]
        exact defines
      · rw [Source.TypeDecl.constructorNames, body]
        rfl
      · intro written isSum
        rw [body] at isSum
        cases isSum

theorem defines_lowerTypes (standard : c.engine = .standard) {decls : List Source.TypeDecl}
    {types : List Typed.TypeDecl}
    (elaborated : List.Forall₂ (fun decl lowered => ∃ env, Elaborates.TypeDecl env decl lowered)
      decls types)
    (defines : s.env.Defines signatures sums)
    (apart : (sums.map Prod.fst ++ decls.map Source.TypeDecl.name).Nodup)
    (distinct : (signatures.map Signature.name ++
      decls.flatMap Source.TypeDecl.constructorNames).Nodup)
    (ran : decls.mapM lowerTypeDecl c s = (.ok types, t)) :
    ∃ added addedSums, t.env.Defines (signatures ++ added) (sums ++ addedSums) ∧
      added.map Signature.name = decls.flatMap Source.TypeDecl.constructorNames ∧
      List.Forall₂ (ListedIn added addedSums) decls types := by
  induction elaborated generalizing s signatures sums with
  | nil =>
      cases ran
      refine ⟨[], [], ?_, rfl, .nil⟩
      rw [List.append_nil, List.append_nil]
      exact defines
  | @cons decl lowered decls types first rest ih =>
      obtain ⟨env, first⟩ := first
      rw [List.mapM_cons] at ran
      obtain ⟨_, r, lowers, ran⟩ := ok_of_bind ran
      obtain ⟨_, r', lowersRest, ran⟩ := ok_of_bind ran
      cases ran
      rw [List.map_cons] at apart
      rw [List.flatMap_cons, ← List.append_assoc] at distinct
      have new : decl.name ∉ sums.map Prod.fst := fun member =>
        (List.nodup_append.mp apart).2.2 _ member _ List.mem_cons_self rfl
      obtain ⟨added, addedSums, defines, names, within, listed⟩ := defines_lowerTypeDecl standard
        first defines new (List.nodup_append.mp distinct).1 lowers
      obtain ⟨added', addedSums', defines, names', listed'⟩ := ih defines
        (by
          rw [List.map_append, List.append_assoc]
          rw [← List.singleton_append] at apart
          exact apart.sublist ((within.append_right _).append_left _))
        (by rwa [List.map_append, names])
        lowersRest
      refine ⟨added ++ added', addedSums ++ addedSums', ?_, ?_, ?_⟩
      · rwa [← List.append_assoc, ← List.append_assoc]
      · rw [List.map_append, names, names', List.flatMap_cons]
      · refine .cons ?_ (listed'.imp fun _ _ listed => ?_)
        · exact listed.mono (List.subset_append_left _ _) (List.subset_append_left _ _)
        · exact listed.mono (List.subset_append_right _ _) (List.subset_append_right _ _)

/-- The functions of a module add their signatures. -/
theorem defines_declares (standard : c.engine = .standard) {decls : List Source.Function}
    (defines : s.env.Defines signatures sums)
    (distinct : (signatures.map Signature.name ++ decls.map Source.Function.name).Nodup)
    (ran : decls.forM declare c s = (.ok (), t)) :
    ∃ added, t.env.Defines (signatures ++ added) sums ∧
      List.Forall₂ (fun decl sig => Yields c s (signatureOf decl) sig) decls added := by
  induction decls generalizing s signatures with
  | nil =>
      cases ran
      exact ⟨[], by rwa [List.append_nil], .nil⟩
  | cons decl decls ih =>
      obtain ⟨_, r, first, rest⟩ := ok_of_bind ran
      obtain ⟨sig, resolved, named, rfl⟩ := declared_of_declare standard first
      rw [List.map_cons, ← named] at distinct
      have new : sig.name ∉ signatures.map Signature.name := fun member =>
        (List.nodup_append.mp distinct).2.2 _ member _ List.mem_cons_self rfl
      have registered : (s.declared decl sig).env.Defines (signatures ++ [sig]) sums :=
        Declares.register defines new rfl rfl
      obtain ⟨added, defines, yielded⟩ := ih registered
        (by rwa [List.map_append, List.append_assoc]) rest
      refine ⟨sig :: added, by rwa [List.append_cons], .cons resolved ?_⟩
      exact yielded.imp fun _ _ => (yields_signatureOf_declared standard).mp

/-! ### Modules on their own -/

/-- Without a source of summaries nothing is loaded. -/
theorem env_loadImport (unsourced : c.source = none) (imported : Source.Import)
    (s : LowerState) : (loadImport imported c s).2.env = s.env := by
  by_cases loaded : imported.moduleName ∈ s.loaded
  · unfold loadImport
    rw [bind_apply]
    show ((if imported.moduleName ∈ s.loaded then pure () else _ : Lower Unit) c s).2.env = _
    rw [if_pos loaded]
    rfl
  · rw [loadImport_apply loaded, unsourced]
    rfl

theorem fresh_reachImport (imported : Source.Import) :
    Maintains (fun s => s.env = {}) (reachImport imported) := by
  refine .env_bind fun s fresh => ?_
  have unknown : s.env.functions.exportedFrom imported.moduleName = [] := by
    rw [fresh]
    rfl
  rw [unknown]
  dsimp only
  split
  · exact .pure ()
  · split
    · rw [pure_bind]
      exact .pure ()
    · refine Maintains.bind_of (maintains_selectImports _ _ _ _)
        (fun _ ran => mem_of_selectImports ran) fun names selected => ?_
      obtain rfl : names = [] := List.eq_nil_iff_forall_not_mem.mpr fun name member =>
        List.not_mem_nil (selected name member)
      exact .pure ()

theorem fresh_processImports (standard : c.engine = .standard) (unsourced : c.source = none)
    {imports : List Source.Import} (fresh : s.env = {})
    (ran : imports.forM processImport c s = (.ok (), t)) : t.env = {} := by
  induction imports generalizing s with
  | nil =>
      cases ran
      exact fresh
  | cons imported imports ih =>
      obtain ⟨_, r, first, rest⟩ := ok_of_bind ran
      rw [processImport_eq] at first
      obtain ⟨_, r', loads, reaches⟩ := ok_of_bind first
      have loaded := env_loadImport unsourced imported s
      rw [loads] at loaded
      have reached := fresh_reachImport imported c standard r' (loaded.trans fresh)
      rw [reaches] at reached
      exact ih reached rest

end Lower

/-- No function or constructor of a module is called as another one, and no type as another
type. -/
structure Source.Module.Unambiguous (m : Source.Module) : Prop where
  values : (m.types.flatMap Source.TypeDecl.constructorNames ++
    m.functions.map Source.Function.name).Nodup
  types : (m.types.map Source.TypeDecl.name).Nodup

theorem Elaborates.Items.parts {final : Environment} {s : LowerState} {m : Source.Module}
    {lowered : Typed.Module} (each : Elaborates.Items final s m.items lowered.items) :
    List.Forall₂ (fun decl lowered => ∃ env, Elaborates.TypeDecl env decl lowered)
        m.types lowered.types ∧
      List.Forall₂ (Elaborates.Function final) m.functions lowered.functions := by
  unfold Source.Module.types Source.Module.functions Typed.Module.types Typed.Module.functions
  generalize m.items = items at each ⊢
  generalize lowered.items = items' at each ⊢
  induction each with
  | nil => exact ⟨.nil, .nil⟩
  | function elaborated _ ih => exact ⟨ih.1, .cons elaborated ih.2⟩
  | type elaborated _ ih => exact ⟨.cons ⟨_, elaborated⟩ ih.1, ih.2⟩

namespace Lower

/-- A module that is lowered on its own knows its constructors and functions, with the
signatures they are lowered to. -/
theorem defines_lowerModule {c : Context} {after : LowerState} (standard : c.engine = .standard)
    (unsourced : c.source = none) {m : Source.Module} (unambiguous : m.Unambiguous)
    {lowered : Typed.Module} (ran : lowerModule m c {} = (.ok lowered, after)) :
    ∃ constructors sums, after.env.Defines
        (constructors ++ lowered.functions.map Typed.Function.signature) sums ∧
      List.Forall₂ (ListedIn constructors sums) m.types lowered.types := by
  obtain ⟨-, _, -, items⟩ := elaborates_lowerModule standard LowerState.Reachable.start.atRest ran
  obtain ⟨elaborated, -⟩ := items.parts
  obtain ⟨s₁, s₂, s₃, s₄, imports, placeholders, lowers, declares, bodies⟩ :=
    passes_of_lowerModule ran
  have fresh : s₁.env = {} := fresh_processImports standard unsourced rfl imports
  have defines : s₁.env.Defines [] [] := fresh ▸ Declares.empty
  have defines₂ := Maintains.forM defines_registerPlaceholder m.types c standard s₁ defines
  rw [placeholders] at defines₂
  obtain ⟨constructors, sums, defines₃, names, listed⟩ := defines_lowerTypes standard elaborated
    defines₂ unambiguous.types (List.nodup_append.mp unambiguous.values).1 lowers
  obtain ⟨signatures, defines₄, yielded⟩ := defines_declares standard defines₃
    (by rw [List.nil_append, names]; exact unambiguous.values) declares
  have defines₅ := (Retags.mapM retags_lowerFunction m.functions).defines c standard s₄ defines₄
  rw [bodies] at defines₅
  -- The functions are lowered with the signatures that they were declared with.
  have same : signatures = lowered.functions.map Typed.Function.signature := by
    refine List.right_unique_forall₂' (fun _ _ _ one other => ?_) yielded
      (List.forall₂_map_right_iff.mpr ((signatures_of_lowerFunctions standard bodies).imp
        fun _ _ both => (yields_signatureOf_declares standard declares).mp both.2))
    exact Except.ok.inj (one.symm.trans other)
  exact ⟨constructors, sums, same ▸ defines₅, listed⟩

end Lower

/-! ### Exports -/

section

variable {decls : List Source.TypeDecl} {types : List Typed.TypeDecl}
  (elaborated : List.Forall₂ (fun decl lowered => ∃ env, Elaborates.TypeDecl env decl lowered)
    decls types)

include elaborated

theorem names_of_elaborated :
    types.map Typed.TypeDecl.name = decls.map Source.TypeDecl.name :=
  map_eq_map_iff.mpr (elaborated.flip.imp fun _ _ ⟨_, elaborated⟩ => elaborated.name)

/-- The constructors of the exported types are called as in the source. -/
theorem names_exported_constructors
    (own : ∀ decl ∈ decls, decl.exported = true → ∀ target, decl.body ≠ .synonym target) :
    (((types.filter (·.exported)).flatMap Typed.TypeDecl.constructors).map
      Signature.name).Sublist (decls.flatMap Source.TypeDecl.constructorNames) := by
  induction elaborated with
  | nil => exact .refl _
  | @cons decl lowered decls types first rest ih =>
      obtain ⟨env, first⟩ := first
      have ih := ih fun decl member => own decl (List.mem_cons_of_mem _ member)
      rw [List.flatMap_cons]
      cases exported : lowered.exported with
      | true =>
          have names := first.names_constructors
            (own decl List.mem_cons_self (first.exported.symm.trans exported))
          rw [List.filter_cons_of_pos exported, List.flatMap_cons, List.map_append, names]
          exact ih.append_left _
      | false =>
          rw [List.filter_cons_of_neg (by rw [exported]; exact Bool.false_ne_true)]
          exact ih.trans (List.sublist_append_right _ _)

end

/-- The summary of a module that is accepted can be loaded, where what it exposes is legible
and no exported type is only another name for a type. -/
theorem exists_loaded {final : Environment} {s : LowerState} {m : Source.Module}
    {lowered : Typed.Module} (elaborated : Elaborates.Items final s m.items lowered.items)
    (own : ∀ decl ∈ m.types, decl.exported = true → ∀ target, decl.body ≠ .synonym target)
    (unambiguous : m.Unambiguous) (legible : ∀ ty ∈ lowered.exposed, ty.Legible) :
    ∃ loaded, (Summary.ofModule lowered).load {} = (.ok (), loaded) ∧
      loaded.Loaded (Summary.registration lowered.name) lowered.exportedSignatures
        (lowered.exportedTypes.flatMap Typed.TypeDecl.sums) := by
  obtain ⟨types, functions⟩ := elaborated.parts
  have names : lowered.functions.map Typed.Function.name =
      m.functions.map Source.Function.name :=
    map_eq_map_iff.mpr (functions.flip.imp fun _ _ => Elaborates.Function.name)
  -- What is exported is part of what is declared, so its names are distinct as well.
  refine Summary.loaded_module ?_ legible ?_ ?_
  · intro lowered member variants given
    obtain ⟨member, exported⟩ := List.mem_filter.mp member
    obtain ⟨decl, declared, _, elaborated⟩ := exists_related types.flip member
    exact elaborated.own_sum (own decl declared (elaborated.exported.symm.trans exported)) given
  · refine unambiguous.types.sublist ?_
    rw [← names_of_elaborated types]
    exact List.filter_sublist.map _
  · refine unambiguous.values.sublist ?_
    rw [Typed.Module.exportedSignatures, List.map_append, List.map_map, ← names]
    exact (names_exported_constructors types own).append (List.filter_sublist.map _)

/-- What a module exports as a function is known where its summary is loaded: as exported and
external, in the namespace of the module, and written as in the module itself. -/
def Environment.Carries (loaded defining : Environment) (moduleName name : String) : Prop :=
  ∃ own known, defining.functions.entry? name = some own ∧
    loaded.functions.entry? name = some known ∧
    known.value.toTy.text = own.value.toTy.text ∧
    known.value.typeParams.map TypeParam.name = own.value.typeParams.map TypeParam.name ∧
    known.exported = true ∧ known.external = true ∧
    known.namespaceName = ModulePath.deriveNamespace (some moduleName)

theorem Environment.Defines.carries {defining loaded : Environment} {moduleName : String}
    {signatures signatures' : List Signature} {sums sums' : List (String × List String)}
    (defines : defining.Defines signatures sums)
    (isLoaded : loaded.Loaded (Summary.registration moduleName) signatures' sums')
    {sig : Signature} (member : sig ∈ signatures) (member' : sig ∈ signatures') :
    loaded.Carries defining moduleName sig.name := by
  obtain ⟨own, held, rfl⟩ := Declares.entry? defines member
  obtain ⟨_, held', known, prints, rfl⟩ := isLoaded.tables.entry? member'
  have space : (Summary.registration moduleName).resolvedNamespace =
      ModulePath.deriveNamespace (some moduleName) := by
    simp [Registration.resolvedNamespace, Summary.registration]
  exact ⟨own, _, held, held', prints.text, prints.typeParams, rfl, rfl, space⟩

theorem lowered_of_compileModule {config : Config} {m : Source.Module} {lowered : Typed.Module}
    {summary : Summary} (accepted : compileModule config m = .ok (lowered, summary)) :
    ∃ after, Lower.lowerModule m { config } {} = (.ok lowered, after) ∧
      summary = Summary.ofModule lowered := by
  unfold compileModule Lower.run at accepted
  rcases ran : Lower.lowerModule m { config } {} with ⟨_ | _, after⟩
  · rw [ran] at accepted
    cases accepted
  · rw [ran] at accepted
    cases accepted
    exact ⟨after, rfl, rfl⟩

/-- What is listed for an exported sum is listed where the summary is loaded. -/
theorem Environment.Defines.carries_sum {defining loaded : Environment} {moduleName : String}
    {signatures : List Signature} {sums : List (String × List String)} {lowered : Typed.Module}
    (defines : defining.Defines signatures sums)
    (isLoaded : loaded.Loaded (Summary.registration moduleName) lowered.exportedSignatures
      (lowered.exportedTypes.flatMap Typed.TypeDecl.sums))
    {env : Environment} {decl : Source.TypeDecl} {type : Typed.TypeDecl}
    (elaborated : Elaborates.TypeDecl env decl type)
    (exports : type ∈ lowered.exportedTypes) (listed : Lower.ListedIn signatures sums decl type)
    {variants : List (String × List WrittenType)} (isSum : decl.body = .sum variants) :
    (∀ variant ∈ variants, loaded.Carries defining moduleName variant.1) ∧
      defining.constructors.variantsOf decl.name = variants.map Prod.fst ∧
      loaded.constructors.variantsOf decl.name = variants.map Prod.fst := by
  obtain ⟨constructors, within⟩ := listed variants isSum
  obtain ⟨resolved, shape, names⟩ := elaborated.isSum isSum
  have listing : (decl.name, variants.map Prod.fst) ∈ type.sums := by
    rw [Typed.TypeDecl.sums_of_sum shape, names, elaborated.name]
    exact List.mem_cons_self
  refine ⟨fun variant member => ?_, ?_, ?_⟩
  · have called : variant.1 ∈ type.constructors.map Signature.name := by
      rw [elaborated.names_constructors (by rw [isSum]; nofun),
        Source.TypeDecl.constructorNames_of_sum isSum]
      exact List.mem_map_of_mem member
    obtain ⟨sig, constructs, named⟩ := List.mem_map.mp called
    rw [← named]
    exact defines.carries isLoaded (constructors constructs)
      (List.mem_append_left _ (List.mem_flatMap.mpr ⟨type, exports, constructs⟩))
  · exact Declares.listed defines _ (within listing)
  · exact isLoaded.tables.listed _ (List.mem_flatMap.mpr ⟨type, exports, listing⟩)

/-- What a module exports survives its summary: written as JSON, read back and loaded where
nothing is known, each exported function and each constructor of an exported sum is known as
an exported and external one of the module's namespace, written with the same type and the
same type parameters as in the module itself, and each exported sum lists the same
constructors in the same order. -/
theorem loaded_summary_carries_exports (config : Config) {m : Source.Module}
    {lowered : Typed.Module} {summary : Summary}
    (accepted : compileModule config m = .ok (lowered, summary))
    (own : ∀ decl ∈ m.types, decl.exported = true → ∀ target, decl.body ≠ .synonym target)
    (unambiguous : m.Unambiguous) (legible : ∀ ty ∈ lowered.exposed, ty.Legible) :
    let defining := ((Lower.lowerModule m).run { config } {}).2.env
    ∃ loaded, (Summary.ofJson? summary.toJson).map (·.load.run {}) = some (.ok (), loaded) ∧
      (∀ decl ∈ m.functions, decl.exported = true →
        loaded.Carries defining m.name decl.name) ∧
      ∀ decl ∈ m.types, decl.exported = true → ∀ variants, decl.body = .sum variants →
        (∀ variant ∈ variants, loaded.Carries defining m.name variant.1) ∧
        defining.constructors.variantsOf decl.name = variants.map Prod.fst ∧
        loaded.constructors.variantsOf decl.name = variants.map Prod.fst := by
  obtain ⟨after, ran, rfl⟩ := lowered_of_compileModule accepted
  have finished : (Lower.lowerModule m).run { config } {} = (.ok lowered, after) := ran
  rw [finished]
  intro defining
  obtain ⟨name, _, -, items⟩ :=
    Lower.elaborates_lowerModule rfl LowerState.Reachable.start.atRest ran
  obtain ⟨types, functions⟩ := items.parts
  obtain ⟨constructors, sums, defines, listed⟩ :=
    Lower.defines_lowerModule rfl rfl unambiguous ran
  obtain ⟨loaded, loads, isLoaded⟩ := exists_loaded items own unambiguous legible
  have restored : Summary.ofJson? (Summary.ofModule lowered).toJson =
      some (Summary.ofModule lowered) := by
    rw [Summary.ofJson?, Summary.toJson, (Summary.restores_summary.plain _).read?_toText,
      Option.bind_some, Summary.restores_summary.decodes]
  rw [name] at isLoaded
  refine ⟨loaded, ?_, ?_, ?_⟩
  · rw [restored, Option.map_some]
    exact congrArg some loads
  · intro decl declared exported
    obtain ⟨function, member, elaborated⟩ := exists_related functions declared
    have exports : function ∈ lowered.exportedFunctions :=
      List.mem_filter.mpr ⟨member, elaborated.exported.trans exported⟩
    rw [← elaborated.name]
    exact defines.carries isLoaded
      (List.mem_append_right constructors (List.mem_map.mpr ⟨function, member, rfl⟩))
      (List.mem_append_right _ (List.mem_map.mpr ⟨function, exports, rfl⟩))
  · intro decl declared exported variants isSum
    obtain ⟨type, member, ⟨_, elaborated⟩, listed⟩ := exists_related
      (types.mp (fun _ _ => And.intro) listed) declared
    have exports : type ∈ lowered.exportedTypes :=
      List.mem_filter.mpr ⟨member, elaborated.exported.trans exported⟩
    refine defines.carries_sum isLoaded elaborated exports ?_ isSum
    exact listed.mono (List.subset_append_left _ _) (List.Subset.refl _)

theorem loaded_summary_carries_exports_shapes :
    let maybe : Source.TypeDecl := {
      name := "Maybe"
      typeParams := [{ name := "T" }]
      body := .sum [("Some", [.named "T"]), ("None", [])]
      exported := true }
    let point : Source.TypeDecl := {
      name := "Point"
      body := .record [("x", .named "i32"), ("tags", .array (.named "string"))]
      exported := true }
    let first : Source.Function := {
      name := "first"
      typeParams := [{ name := "T" }]
      params := [{ name := "items", ty := .array (.named "T") },
        { name := "keep", ty := .function [.named "T"] (.named "bool") }]
      result := some (.generic "Maybe" [.named "T"])
      exported := true }
    let distance : Source.Function := {
      name := "distance"
      params := [{ name := "point", ty := .ref (.named "Point") }]
      result := some (.named "i32")
      body := some ⟨.literal (.int 0), none⟩
      exported := true }
    let m : Source.Module := {
      name := "geometry.shapes"
      items := [.function first, .type maybe, .type point, .function distance] }
    let defining := ((Lower.lowerModule m).run {} {}).2.env
    ∃ lowered summary loaded, compileModule {} m = .ok (lowered, summary) ∧
      (Summary.ofJson? summary.toJson).map (·.load.run {}) = some (.ok (), loaded) ∧
      loaded.Carries defining m.name first.name ∧
      loaded.Carries defining m.name distance.name ∧
      loaded.Carries defining m.name "Some" ∧
      loaded.constructors.variantsOf "Maybe" = ["Some", "None"] := by
  intro maybe point first distance m defining
  have checked : (compileModule {} m).toOption.any (fun compiled =>
      decide (∀ ty ∈ compiled.1.exposed, ty.Legible)) = true := by decide +kernel
  rcases accepted : compileModule {} m with _ | ⟨lowered, summary⟩
  · rw [accepted] at checked
    cases checked
  rw [accepted] at checked
  have own : ∀ decl ∈ m.types, decl.exported = true → ∀ target, decl.body ≠ .synonym target := by
    intro decl member _ target
    rcases List.mem_cons.mp member with rfl | member
    · nofun
    · obtain rfl := List.mem_singleton.mp member
      nofun
  obtain ⟨loaded, loads, functions, sums⟩ := loaded_summary_carries_exports {} accepted own
    ⟨by decide, by decide⟩ (of_decide_eq_true checked)
  obtain ⟨constructors, -, listed⟩ := sums maybe List.mem_cons_self rfl _ rfl
  refine ⟨lowered, summary, loaded, rfl, loads, ?_, ?_, ?_, listed⟩
  · exact functions first List.mem_cons_self rfl
  · exact functions distance (List.mem_cons_of_mem _ List.mem_cons_self) rfl
  · exact constructors ("Some", [.named "T"]) List.mem_cons_self

end ModuleTyping
