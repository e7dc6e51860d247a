import ModuleTyping.Lowering.Modules
import ModuleTyping.Proofs.Lowering.Declarations
import ModuleTyping.Proofs.SymbolTable.Constructors

/-!
# Lowering module after module

Lowering a module edits what is known in a handful of ways, so a property of states that
these edits keep (`LowerState.Lasting`) outlasts the module, also where lowering it fails.

Between modules a pass is at rest: it is in no scope, no type parameters and no function are
around, and its function table was built by the edits that tables admit. Being at rest is
lasting, so every state that a pass reaches by lowering modules is one of rest
(`LowerState.Reachable`).

From there, the items of a module that is accepted are elaborated one by one and in order.
-/

namespace ModuleTyping

/-! ### Tables built by edits -/

theorem FunctionTable.table_of_registerAlias {functions after : FunctionTable} {key name : String}
    (accepted : functions.registerAlias key name = .ok after) :
    functions.table.registerAlias key name = .ok after.table := by
  unfold FunctionTable.registerAlias at accepted
  cases registered : functions.table.registerAlias key name with
  | error error =>
      rw [registered] at accepted
      cases accepted
  | ok table =>
      rw [registered] at accepted
      cases accepted
      rfl

/-! ### States of rest -/

/-- No scope is entered, and the function table was built by edits. -/
structure Environment.AtRest (env : Environment) : Prop where
  scopes : env.scopes = ∅
  functions : env.functions.table.Reachable

/-- Nothing is around that a declaration would have entered. -/
structure LowerState.AtRest (s : LowerState) : Prop where
  env : s.env.AtRest
  typeParams : s.typeParams = []
  results : s.results = []

/-- The state of a pass after some modules, which may have been accepted or not. -/
inductive LowerState.Reachable : LowerState → Prop
  | start : Reachable {}
  | lowered {s : LowerState} (config : Config) (source : Option (String → Option Summary))
      (m : Source.Module) : Reachable s →
      Reachable ((Lower.lowerModule m).run { config, source } s).2

/-! ### What outlasts a module -/

/-- What holds of an environment still holds once types, constructors, functions and aliases
are registered. -/
structure Environment.Lasting (P : Environment → Prop) : Prop where
  type : ∀ env info reg, P env → P { env with types := env.types.register info reg }
  sum : ∀ env info reg, P env → P { env with
    constructors := (env.constructors.registerSum env.functions info reg).2.1
    functions := (env.constructors.registerSum env.functions info reg).2.2 }
  function : ∀ env sig reg, P env → P { env with functions := env.functions.register sig reg }
  aliased : ∀ env {key name functions}, env.functions.registerAlias key name = .ok functions →
    P env → P { env with functions }

/-- What holds of a state still holds once its environment is edited, a module is entered or
loaded, or functions are tagged. -/
structure LowerState.Lasting (P : LowerState → Prop) : Prop where
  env : ∀ s : LowerState, Environment.Lasting fun env => P { s with env }
  retagged : ∀ s t, s.Retagged t → P s → P t
  entered : ∀ s moduleName namespaceName, P s → P { s with moduleName, namespaceName }
  loaded : ∀ s loaded, P s → P { s with loaded }

theorem Environment.lasting_atRest : Environment.Lasting AtRest where
  type _ _ _ rest := ⟨rest.scopes, rest.functions⟩
  sum env info reg rest :=
    ⟨rest.scopes, env.constructors.reachable_registerSum rest.functions info reg⟩
  function _ _ _ rest := ⟨rest.scopes, rest.functions.after_register ..⟩
  aliased _ _ _ _ accepted rest :=
    ⟨rest.scopes,
      rest.functions.after_registerAlias (FunctionTable.table_of_registerAlias accepted)⟩

theorem LowerState.lasting_atRest : LowerState.Lasting AtRest where
  env _ := {
    type _ _ _ rest :=
      ⟨Environment.lasting_atRest.type _ _ _ rest.env, rest.typeParams, rest.results⟩
    sum _ _ _ rest := ⟨Environment.lasting_atRest.sum _ _ _ rest.env, rest.typeParams, rest.results⟩
    function _ _ _ rest :=
      ⟨Environment.lasting_atRest.function _ _ _ rest.env, rest.typeParams, rest.results⟩
    aliased _ _ _ _ accepted rest :=
      ⟨Environment.lasting_atRest.aliased _ accepted rest.env, rest.typeParams, rest.results⟩ }
  retagged _ _ after rest := {
    env := {
      scopes := after.scopes ▸ rest.env.scopes
      functions := after.table ▸ rest.env.functions }
    typeParams := after.typeParams ▸ rest.typeParams
    results := after.results ▸ rest.results }
  entered _ _ _ rest := ⟨rest.env, rest.typeParams, rest.results⟩
  loaded _ _ rest := ⟨rest.env, rest.typeParams, rest.results⟩

/-! ### Loading -/

namespace Summary

open Stateful (Preserves)

section Lasting

variable {P : Environment → Prop}

theorem preserves_loadTy (typeParams : List String) (text : String) :
    Preserves P (loadTy typeParams text) := by
  unfold loadTy
  split
  · exact .get_bind fun _ => .pure _
  · exact .throws _

variable (lasting : Environment.Lasting P)

include lasting

theorem preserves_loadType (reg : Registration) (decl : TypeDecl) :
    Preserves P (loadType reg decl) := by
  have registered (info : TypeInfo) : Preserves P
      (modify fun env => { env with types := env.types.register info reg } : Load Unit) :=
    .modifies fun env held => lasting.type env info reg held
  unfold loadType
  split
  · refine Preserves.bind (.mapM (fun field => ?_) _) fun fields => registered _
    exact (preserves_loadTy _ _).bind fun _ => .pure _
  · exact registered _
  · exact .pure ()

theorem preserves_loadSum (reg : Registration) (decl : SumDecl) :
    Preserves P (loadSum reg decl) := by
  unfold loadSum
  split
  · refine Preserves.bind (.mapM (fun variant => ?_) _) fun variants => ?_
    · exact (Preserves.mapM (preserves_loadTy _) _).bind fun _ => .pure _
    · let info : TypeInfo :=
        { name := decl.name, ty := .sum decl.name variants,
          typeParams := openParams decl.typeParams }
      exact .modifies fun env held => lasting.type _ info reg (lasting.sum env info reg held)
  · exact .pure ()

theorem preserves_loadFunction (reg : Registration) (decl : Function) :
    Preserves P (loadFunction reg decl) := by
  unfold loadFunction
  refine (Preserves.mapM (fun param => preserves_loadTy _ _) _).bind fun params => ?_
  refine (preserves_loadTy _ _).bind fun result => ?_
  exact .modifies fun env held => lasting.function env _ reg held

/-- Loading a summary keeps what is lasting, also where it ends early. -/
theorem preserves_load (summary : Summary) : Preserves P summary.load := by
  unfold load
  refine (Preserves.forM (preserves_loadType lasting _) _).bind fun _ => ?_
  refine (Preserves.forM (preserves_loadSum lasting _) _).bind fun _ => ?_
  exact .forM (preserves_loadFunction lasting _) _

end Lasting

end Summary

/-! ### Steps -/

namespace Lower

variable {α β : Type}

/-- With the standard rules, the computation keeps a property of states. -/
def Maintains (P : LowerState → Prop) (x : Lower α) : Prop :=
  ∀ c : Context, c.engine = .standard → Stateful.Preserves P (x c)

/-- With the standard rules, the computation leaves a pass that was at rest at rest. -/
abbrev Settles (x : Lower α) : Prop :=
  Maintains LowerState.AtRest x

namespace Maintains

variable {P : LowerState → Prop}

theorem pure (a : α) : Maintains P (Pure.pure a : Lower α) :=
  fun _ _ _ holds => holds

theorem fail (cause : Cause) (origin : Origin) :
    Maintains P (Lower.fail cause origin : Lower α) :=
  fun _ _ _ holds => holds

theorem bind {x : Lower α} {f : α → Lower β} (first : Maintains P x)
    (rest : ∀ a, Maintains P (f a)) : Maintains P (x >>= f) :=
  fun c standard => (first c standard).bind fun a => rest a c standard

theorem get_bind {f : LowerState → Lower β} (rest : ∀ s, P s → Maintains P (f s)) :
    Maintains P (get >>= f) :=
  fun c standard s holds => rest s holds c standard s holds

theorem env_bind {f : Environment → Lower β} (rest : ∀ s, P s → Maintains P (f s.env)) :
    Maintains P (env >>= f) :=
  .get_bind rest

theorem modifies {f : LowerState → LowerState} (kept : ∀ s, P s → P (f s)) :
    Maintains P (modify f) :=
  fun _ _ s holds => kept s holds

theorem modifyEnv {f : Environment → Environment}
    (kept : ∀ s, P s → P { s with env := f s.env }) : Maintains P (Lower.modifyEnv f) :=
  .modifies kept

theorem discard {x : Lower α} (maintains : Maintains P x) : Maintains P (discard x) := by
  show Maintains P ((fun _ => ()) <$> x)
  rw [map_eq_pure_bind]
  exact maintains.bind fun _ => .pure ()

/-- What comes after a computation may rely on what it gives. -/
theorem bind_of {Q : α → Prop} {x : Lower α} {f : α → Lower β} (first : Maintains P x)
    (gives : ∀ {c s a}, c.engine = .standard → Yields c s x a → Q a)
    (rest : ∀ a, Q a → Maintains P (f a)) : Maintains P (x >>= f) := by
  intro c standard s holds
  have after := first c standard s holds
  rcases ran : x c s with ⟨fault | a, t⟩
  · rw [ran] at after
    rw [bind_apply, ran]
    exact after
  · rw [ran] at after
    rw [bind_apply, ran]
    exact rest a (gives standard (congrArg Prod.fst ran)) c standard t after

theorem forM_mem {f : α → Lower Unit} {l : List α} (each : ∀ a ∈ l, Maintains P (f a)) :
    Maintains P (l.forM f) := by
  induction l with
  | nil => exact .pure ()
  | cons a l ih =>
      exact (each a List.mem_cons_self).bind fun _ =>
        ih fun b member => each b (List.mem_cons_of_mem a member)

theorem forM {f : α → Lower Unit} (each : ∀ a, Maintains P (f a)) (l : List α) :
    Maintains P (l.forM f) :=
  forM_mem fun a _ => each a

/-- What one of the steps brings about, and none of the others undoes, holds in the end. -/
theorem established {Q : LowerState → Prop} {f : α → Lower Unit} {l : List α} {a : α}
    {c : Context} {s t : LowerState} (member : a ∈ l)
    (keeps : ∀ b ∈ l, Maintains P (f b)) (keeps' : ∀ b ∈ l, Maintains Q (f b))
    (makes : ∀ {s t}, P s → f a c s = (.ok (), t) → Q t) (standard : c.engine = .standard)
    (holds : P s) (ran : l.forM f c s = (.ok (), t)) : Q t := by
  induction l generalizing s with
  | nil => cases member
  | cons b l ih =>
      obtain ⟨_, r, first, rest⟩ := Stateful.ok_of_bind ran
      replace rest : l.forM f c r = (.ok (), t) := rest
      rcases List.mem_cons.mp member with rfl | member
      · have later := forM_mem (fun b member => keeps' b (List.mem_cons_of_mem a member))
          c standard r (makes holds first)
        rwa [rest] at later
      · have after := keeps b List.mem_cons_self c standard s holds
        rw [first] at after
        exact ih member (fun b member => keeps b (List.mem_cons_of_mem _ member))
          (fun b member => keeps' b (List.mem_cons_of_mem _ member)) after rest

theorem mapM_mem {f : α → Lower β} {l : List α} (each : ∀ a ∈ l, Maintains P (f a)) :
    Maintains P (l.mapM f) := by
  induction l with
  | nil => exact .pure []
  | cons a l ih =>
      rw [List.mapM_cons]
      refine (each a List.mem_cons_self).bind fun _ => ?_
      exact (ih fun b member => each b (List.mem_cons_of_mem a member)).bind fun _ => .pure _

theorem mapM {f : α → Lower β} (each : ∀ a, Maintains P (f a)) (l : List α) :
    Maintains P (l.mapM f) :=
  mapM_mem fun a _ => each a

theorem dispatch {stage : Stage} {node : Node} {lower : Shape → Lower α}
    (staged : node.shape.stage = stage) (maintains : Maintains P (lower node.shape))
    (take : Product → Option α) : Maintains P (Lower.dispatch stage node lower take) := by
  intro c standard s holds
  have after := maintains c standard s holds
  rw [dispatch_standard standard staged]
  unfold placed
  generalize lower node.shape c s = run at after ⊢
  rcases run with ⟨fault | a, t⟩ <;> exact after

end Maintains

theorem maintains_selectImports {P : LowerState → Prop} (imported : Source.Import)
    (functions types items : List String) :
    Maintains P (selectImports imported functions types items) := by
  induction items with
  | nil => exact .pure []
  | cons item items ih =>
      rw [selectImports]
      split
      · exact ih.bind fun _ => .pure _
      · split
        · exact ih
        · exact .fail _ _

theorem env_bind_apply (rest : Environment → Lower β) (c : Context) (s : LowerState) :
    (env >>= rest) c s = rest s.env c s :=
  rfl

/-- What loading an import leaves: nothing is loaded of a module that nothing is known of. -/
theorem loadImport_apply {c : Context} {s : LowerState} {imported : Source.Import}
    (unloaded : imported.moduleName ∉ s.loaded) : loadImport imported c s =
      match c.source.bind (· imported.moduleName) with
      | none => (.ok (), { s with loaded := imported.moduleName :: s.loaded })
      | some summary =>
        match summary.load s.env with
        | (.ok _, env) => (.ok (), { s with env, loaded := imported.moduleName :: s.loaded })
        | (.error cause, env) => (.error { cause, origin := imported.origin }, { s with env }) := by
  unfold loadImport
  rw [bind_apply]
  show (if imported.moduleName ∈ s.loaded then pure () else _ : Lower Unit) c s = _
  rw [if_neg unloaded, read_bind_apply]
  cases c.source.bind (· imported.moduleName) with
  | none => rfl
  | some summary =>
      dsimp only
      show ((do
        modifyEnv fun _ => (summary.load s.env).2
        ofExcept (summary.load s.env).1 imported.origin
        modify fun state => { state with loaded := imported.moduleName :: state.loaded } :
          Lower Unit) c s) = _
      rcases summary.load s.env with ⟨cause | _, env⟩ <;> rfl

section Lasting

variable {P : LowerState → Prop} (lasting : LowerState.Lasting P)

include lasting

theorem Retags.maintains {x : Lower α} (retags : Retags x) : Maintains P x :=
  fun _ standard s holds => lasting.retagged _ _ (retags.frame s standard) holds

theorem maintains_loadImport (imported : Source.Import) : Maintains P (loadImport imported) := by
  intro c standard s holds
  by_cases known : imported.moduleName ∈ s.loaded
  · have skipped : loadImport imported c s = (.ok (), s) := by
      unfold loadImport
      rw [bind_apply]
      show (if imported.moduleName ∈ s.loaded then pure () else _ : Lower Unit) c s = _
      rw [if_pos known]
      rfl
    rw [skipped]
    exact holds
  · rw [loadImport_apply known]
    cases c.source.bind (· imported.moduleName) with
    | none => exact lasting.loaded s _ holds
    | some summary =>
        have kept := summary.preserves_load (lasting.env s) s.env holds
        dsimp only
        generalize summary.load s.env = run at kept ⊢
        rcases run with ⟨cause | _, env⟩
        · exact kept
        · exact lasting.loaded { s with env } _ kept

theorem maintains_registerAlias (origin : Origin) (name key : String) :
    Maintains P (registerAlias origin name key) := by
  intro c standard s holds
  unfold registerAlias
  rw [env_bind_apply]
  cases accepted : s.env.functions.registerAlias key name with
  | error error => exact holds
  | ok functions => exact (lasting.env s).aliased s.env accepted holds

theorem maintains_processImport (imported : Source.Import) :
    Maintains P (processImport imported) := by
  unfold processImport
  refine (maintains_loadImport lasting imported).bind fun _ => ?_
  refine .env_bind fun env _ => ?_
  have aliased (names : List String) : Maintains P (names.forM fun name =>
      (ModulePath.qualifiedAliases name (ModulePath.shortName imported.moduleName)
        imported.importedAs).forM (registerAlias imported.origin name)) :=
    .forM (fun name => .forM (maintains_registerAlias lasting _ _) _) _
  dsimp only
  split
  · exact .pure ()
  · split
    · exact (Maintains.pure _).bind aliased
    · exact (maintains_selectImports _ _ _ _).bind aliased

theorem maintains_registerPlaceholder (decl : Source.TypeDecl) :
    Maintains P (registerPlaceholder decl) := by
  refine .get_bind fun s _ => ?_
  exact .modifyEnv fun s holds => (lasting.env s).type s.env _ _ holds

theorem maintains_enterModule (name : String) : Maintains P (enterModule name) :=
  .modifies fun s holds => lasting.entered s _ _ holds

theorem maintains_registerType (decl : Source.TypeDecl) (ty : Ty) (typeParams : List TypeParam) :
    Maintains P (registerType decl ty typeParams) := by
  refine .get_bind fun s _ => ?_
  refine Maintains.bind (.modifyEnv fun s holds => ?_) fun _ => .pure _
  exact (lasting.env s).type s.env _ _ holds

theorem maintains_registerConstructors (decl : Source.TypeDecl) (ty : Ty)
    (typeParams : List TypeParam) : Maintains P (registerConstructors decl ty typeParams) := by
  refine .get_bind fun s _ => ?_
  exact .modifyEnv fun s holds => (lasting.env s).sum s.env _ _ holds

theorem maintains_lowerTypeDecl (decl : Source.TypeDecl) : Maintains P (lowerTypeDecl decl) := by
  refine .dispatch (stage_typeDecl decl) ?_ _
  unfold lowerTypeAs
  refine Maintains.bind ((quiet_declaredParams _ _).retags.maintains lasting) fun typeParams => ?_
  refine Maintains.bind
    ((Quiet.retags ((quiet_resolveBody _ _ _).withTypeParams _)).maintains lasting) fun ty => ?_
  refine (maintains_registerType lasting decl ty typeParams).bind fun lowered => ?_
  split
  · exact (maintains_registerConstructors lasting decl ty typeParams).bind fun _ => .pure _
  · exact .pure _

theorem maintains_declareFunction (decl : Source.Function) :
    Maintains P (declareFunction decl) := by
  refine ((quiet_signatureOf decl).retags.maintains lasting).bind fun sig => ?_
  refine .get_bind fun s _ => ?_
  refine Maintains.bind (.modifyEnv fun s holds => ?_) fun _ => .pure _
  exact (lasting.env s).function s.env _ _ holds

/-- What is lasting outlasts the lowering of a module. -/
theorem maintains_lowerModule (m : Source.Module) : Maintains P (lowerModule m) := by
  unfold lowerModule
  refine (maintains_enterModule lasting m.name).bind fun _ => ?_
  refine Maintains.bind (.forM (maintains_processImport lasting) _) fun _ => ?_
  refine Maintains.bind (.forM (maintains_registerPlaceholder lasting) _) fun _ => ?_
  refine Maintains.bind (.mapM (maintains_lowerTypeDecl lasting) _) fun types => ?_
  refine Maintains.bind (.forM (fun decl => (maintains_declareFunction lasting decl).discard) _)
    fun _ => ?_
  refine Maintains.bind (.mapM (fun decl => (retags_lowerFunction decl).maintains lasting) _)
    fun functions => ?_
  exact .get_bind fun s _ => .pure _

end Lasting

theorem settles_lowerModule (m : Source.Module) : Settles (lowerModule m) :=
  maintains_lowerModule LowerState.lasting_atRest m

end Lower

/-- What holds at the start and is lasting holds whenever a module has been lowered. -/
theorem LowerState.Reachable.of_lasting {P : LowerState → Prop} (lasting : Lasting P)
    (start : P {}) {s : LowerState} (reachable : s.Reachable) : P s := by
  induction reachable with
  | start => exact start
  | lowered config source m _ ih => exact Lower.maintains_lowerModule lasting m _ rfl _ ih

theorem LowerState.Reachable.atRest {s : LowerState} (reachable : s.Reachable) : s.AtRest :=
  reachable.of_lasting lasting_atRest ⟨⟨rfl, [], rfl⟩, rfl, rfl⟩

/-! ### Accepted modules -/

namespace Lower

variable {α β : Type} {c : Context} {s t : LowerState}

theorem ok_of_bind {x : Lower α} {f : α → Lower β} {b : β}
    (ran : (x >>= f) c s = (.ok b, t)) : ∃ a r, x c s = (.ok a, r) ∧ f a c r = (.ok b, t) :=
  Stateful.ok_of_bind ran

theorem Maintains.ok_of_bind {P : LowerState → Prop} {x : Lower α} {f : α → Lower β} {b : β}
    (maintains : Maintains P x) (standard : c.engine = .standard) (holds : P s)
    (ran : (x >>= f) c s = (.ok b, t)) :
    ∃ a r, x c s = (.ok a, r) ∧ P r ∧ f a c r = (.ok b, t) := by
  obtain ⟨a, r, first, rest⟩ := Lower.ok_of_bind ran
  have after := maintains c standard s holds
  rw [first] at after
  exact ⟨a, r, first, after, rest⟩

/-- Working through a list with success gives what each element gives, in order. -/
theorem forall₂_of_mapM {P : LowerState → Prop} {R : α → β → Prop} {f : α → Lower β}
    (step : ∀ {a b s t}, P s → f a c s = (.ok b, t) → R a b ∧ P t) {l : List α} {bs : List β}
    (holds : P s) (ran : l.mapM f c s = (.ok bs, t)) : List.Forall₂ R l bs := by
  induction l generalizing s bs with
  | nil =>
      cases ran
      exact .nil
  | cons a l ih =>
      rw [List.mapM_cons] at ran
      obtain ⟨b, r, first, ran⟩ := Stateful.ok_of_bind ran
      obtain ⟨rest, r', lowered, ran⟩ := Stateful.ok_of_bind ran
      cases ran
      obtain ⟨related, holds⟩ := step holds first
      exact .cons related (ih holds lowered)

theorem Retags.mapM {f : α → Lower β} (each : ∀ a, Retags (f a)) (l : List α) :
    Retags (l.mapM f) := by
  induction l with
  | nil => exact Quiet.retags (.pure rfl)
  | cons a l ih =>
      rw [List.mapM_cons]
      exact (each a).bind fun _ => ih.bind fun _ => Quiet.retags (.pure rfl)

theorem forM_registerPlaceholder (decls : List Source.TypeDecl) :
    decls.forM registerPlaceholder c s = (.ok (), s.withPlaceholders decls) := by
  induction decls generalizing s with
  | nil => rfl
  | cons decl decls ih => exact ih

/-- What surrounds the functions of a module is what is left when all of them are lowered. -/
theorem elaborates_lowerFunctions (standard : c.engine = .standard) (atRest : s.AtRest)
    {decls : List Source.Function} {lowered : List Typed.Function}
    (ran : decls.mapM lowerFunction c s = (.ok lowered, t)) :
    List.Forall₂ (Elaborates.Function t.env) decls lowered := by
  have left : s.Retagged t := by
    have frame := (Retags.mapM retags_lowerFunction decls).frame s standard
    rwa [ran] at frame
  refine forall₂_of_mapM (P := fun s => s.AtRest ∧ s.Retagged t) ?_ ⟨atRest, left⟩ ran
  rintro decl lowered s r ⟨atRest, left⟩ ran
  have after := (retags_lowerFunction decl).maintains LowerState.lasting_atRest c standard s atRest
  have frame := (retags_lowerFunction decl).frame s standard
  rw [ran] at after frame
  refine ⟨elaborates_lowerFunction standard atRest.env.scopes atRest.typeParams left ?_,
    after, frame.symm.trans left⟩
  exact congrArg Prod.fst ran

/-- Lowered types and functions are put back in the order of the source. The types were
lowered one after another, each in the state that the one before left. -/
theorem elaborates_weave (standard : c.engine = .standard) {final : Environment}
    (items : List Source.Item) {types : List Typed.TypeDecl} {functions : List Typed.Function}
    (atRest : s.AtRest)
    (ran : (Source.Module.types ⟨"", [], items⟩).mapM lowerTypeDecl c s = (.ok types, t))
    (elaborated : List.Forall₂ (Elaborates.Function final)
      (Source.Module.functions ⟨"", [], items⟩) functions) :
    Elaborates.Items final s items (weave items types functions) := by
  induction items generalizing s types functions with
  | nil => exact .nil
  | cons item items ih =>
      cases item with
      | type decl =>
          replace ran : (decl :: Source.Module.types ⟨"", [], items⟩).mapM lowerTypeDecl c s =
            (.ok types, t) := ran
          rw [List.mapM_cons] at ran
          obtain ⟨lowered, r, first, after, ran⟩ := (maintains_lowerTypeDecl
            LowerState.lasting_atRest decl).ok_of_bind standard atRest ran
          obtain ⟨rest, r', lowers, ran⟩ := ok_of_bind ran
          cases ran
          have declares :=
            elaborates_lowerTypeDecl standard atRest.env.scopes atRest.typeParams first
          obtain ⟨-, -, -, -, -, rfl⟩ := ok_of_lowerTypeDecl standard first
          exact .type declares (ih after lowers elaborated)
      | function decl =>
          cases elaborated with
          | cons first rest => exact .function first (ih atRest ran rest)

theorem elaborates_lowerModule (standard : c.engine = .standard) (atRest : s.AtRest)
    {m : Source.Module} {lowered : Typed.Module} (ran : lowerModule m c s = (.ok lowered, t)) :
    let entered : LowerState := { s with
      moduleName := m.name, namespaceName := ModulePath.deriveNamespace (some m.name) }
    lowered.name = m.name ∧ ∃ imported,
      m.imports.forM processImport c entered = (.ok (), imported) ∧
      Elaborates.Items t.env (imported.withPlaceholders m.types) m.items lowered.items := by
  have lasting := LowerState.lasting_atRest
  unfold lowerModule at ran
  obtain ⟨_, s, enters, atRest, ran⟩ :=
    (maintains_enterModule lasting m.name).ok_of_bind standard atRest ran
  cases enters
  obtain ⟨_, s, imports, atRest, ran⟩ :=
    (Maintains.forM (maintains_processImport lasting) _).ok_of_bind standard atRest ran
  obtain ⟨_, named, placeholders, atRest, ran⟩ :=
    (Maintains.forM (maintains_registerPlaceholder lasting) _).ok_of_bind standard atRest ran
  rw [forM_registerPlaceholder] at placeholders
  cases placeholders
  obtain ⟨types, s', lowerTypes, atRest', ran⟩ :=
    (Maintains.mapM (maintains_lowerTypeDecl lasting) _).ok_of_bind standard atRest ran
  obtain ⟨_, s'', -, atRest'', ran⟩ :=
    (Maintains.forM (fun decl => (maintains_declareFunction lasting decl).discard)
      _).ok_of_bind standard atRest' ran
  obtain ⟨functions, after, lowerFunctions, ran⟩ := Stateful.ok_of_bind ran
  cases ran
  refine ⟨rfl, s, imports, elaborates_weave standard m.items atRest lowerTypes ?_⟩
  exact elaborates_lowerFunctions standard atRest'' lowerFunctions

/-- A module that is accepted is lowered to one of its name with one item for each item of
the source, in the order of the source, and each elaborates the one it comes from: a function
with the tables that are left in the end around it, and a type with the tables that are there
when it is reached. These hold what the imports brought, all types of the module by name, and in
place of their names the types that are declared before it. -/
theorem accepted_module_elaborated (config : Config) (source : Option (String → Option Summary))
    (reachable : s.Reachable) {m : Source.Module} {lowered : Typed.Module} {after : LowerState}
    (accepted : (lowerModule m).run { config, source } s = (.ok lowered, after)) :
    let entered : LowerState := { s with
      moduleName := m.name, namespaceName := ModulePath.deriveNamespace (some m.name) }
    lowered.name = m.name ∧ ∃ imported,
      (m.imports.forM processImport).run { config, source } entered = (.ok (), imported) ∧
      Elaborates.Items after.env (imported.withPlaceholders m.types) m.items lowered.items :=
  elaborates_lowerModule rfl reachable.atRest accepted

theorem accepted_module_elaborated_shapes :
    let shape : Source.TypeDecl :=
      { name := "Shape", body := .sum [("Dot", []), ("Box", [.named "i32"])] }
    let area : Source.Function := {
      name := "area"
      params := [{ name := "shape", ty := .named "Shape" }]
      result := some (.named "i32")
      body := some ⟨.matching ⟨.var "shape", none⟩ [
        ⟨.bind "Dot", ⟨.literal (.int 0), none⟩, none⟩,
        ⟨.constructor "Box" [.bind "side"],
          ⟨.binary .mul ⟨.var "side", none⟩ ⟨.var "side", none⟩, none⟩, none⟩], none⟩ }
    let start : Source.Function := {
      name := "start"
      result := some (.named "i32")
      body := some ⟨.block [
        ⟨.bind "measure" false none ⟨.var "area", none⟩, none⟩,
        ⟨.bind "dot" true (some (.named "Shape")) ⟨.var "Dot", none⟩, none⟩]
        (some ⟨.call ⟨.var "measure", none⟩ [⟨.var "dot", none⟩], none⟩), none⟩ }
    let m : Source.Module :=
      { name := "geometry", items := [.function start, .type shape, .function area] }
    let entered : LowerState := {
      moduleName := "geometry"
      namespaceName := ModulePath.deriveNamespace (some "geometry") }
    ∃ lowered after, (lowerModule m).run {} {} = (.ok lowered, after) ∧
      lowered.name = "geometry" ∧
      Elaborates.Items after.env (entered.withPlaceholders [shape]) m.items lowered.items := by
  intro shape area start m entered
  have ok : ((lowerModule m).run {} {}).1.isOk = true := by decide +kernel
  rcases accepted : (lowerModule m).run {} {} with ⟨_ | lowered, after⟩
  · rw [accepted] at ok
    cases ok
  · obtain ⟨name, imported, imports, items⟩ := accepted_module_elaborated {} none .start accepted
    cases imports
    exact ⟨lowered, after, rfl, name, items⟩

end Lower

end ModuleTyping
