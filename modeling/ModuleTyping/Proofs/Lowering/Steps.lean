import ModuleTyping.Proofs.Lowering.Order
import ModuleTyping.Proofs.Summary.Loading

/-!
# The steps of lowering a module

Beyond single expressions, lowering a module registers what it declares and loads what it
imports. None of these steps announces anything of its own, and none of them consults a
setting (`Regular`): announcements and the check of matches come in with the types and
bodies that a step resolves or lowers. Working out effects is the one thing that another
setting governs, and it happens apart from the steps below.
-/

namespace ModuleTyping

namespace Lower

variable {α β : Type}

/-- With the standard rules, the computation announces what its outcome calls for, after
what was announced before. -/
def Reports (x : Lower α) : Prop :=
  ∀ (c : Context) (s : LowerState), c.engine = .standard →
    ∃ announced, (x c s).2.announced = s.announced ++ announced ∧
      Announces (x c s).1 announced

theorem Acts.reports {agree : FunctionTable → FunctionTable → Prop}
    {effect : Except Fault α → List (String × Ty) → Prop} {x : Lower α}
    (acts : Acts agree effect x) : Reports x := by
  intro c s standard
  obtain ⟨names, announced, after, announces, -⟩ := acts.frame s standard
  exact ⟨announced, congrArg LowerState.announced after, announces⟩

namespace Reports

theorem bind {x : Lower α} {f : α → Lower β} (first : Reports x) (rest : ∀ a, Reports (f a)) :
    Reports (x >>= f) := by
  intro c s standard
  obtain ⟨announced, after, announces⟩ := first c s standard
  rw [bind_apply]
  generalize x c s = run at after announces ⊢
  rcases run with ⟨fault | a, t⟩
  · exact ⟨announced, after, announces⟩
  · -- A step that succeeds has announced nothing.
    obtain rfl : announced = [] := announces
    obtain ⟨announced', after', announces'⟩ := rest a c t standard
    refine ⟨announced', ?_, announces'⟩
    rw [after', show t.announced = s.announced ++ [] from after, List.append_nil]

theorem read_bind {f : Context → Lower β} (rest : ∀ c, Reports (f c)) : Reports (read >>= f) :=
  fun c s standard => rest c c s standard

theorem modifies {f : LowerState → LowerState} (kept : ∀ s, (f s).announced = s.announced) :
    Reports (modify f) :=
  fun _ s _ => ⟨[], (kept s).trans (List.append_nil _).symm, rfl⟩

theorem pure (a : α) : Reports (Pure.pure a : Lower α) :=
  fun _ _ _ => ⟨[], (List.append_nil _).symm, rfl⟩

theorem mapM {f : α → Lower β} (each : ∀ a, Reports (f a)) (l : List α) :
    Reports (l.mapM f) := by
  induction l with
  | nil => exact .pure []
  | cons a l ih =>
      rw [List.mapM_cons]
      exact (each a).bind fun _ => ih.bind fun _ => .pure _

theorem dispatch {stage : Stage} {node : Node} {lower : Shape → Lower α}
    (staged : node.shape.stage = stage) (reports : Reports (lower node.shape))
    (take : Product → Option α) : Reports (Lower.dispatch stage node lower take) := by
  intro c s standard
  obtain ⟨announced, after, announces⟩ := reports c s standard
  rw [dispatch_standard standard staged]
  unfold placed
  generalize lower node.shape c s = run at after announces ⊢
  rcases run with ⟨fault | a, t⟩ <;> exact ⟨announced, after, announces⟩

end Reports

/-- The computation announces what its outcome calls for, and of all settings only the check
of matches bears on it, by refusing it. -/
structure Regular (x : Lower α) : Prop where
  reports : Reports x
  follows : ∀ {c c' : Context}, c.Relaxes c' → Follows c c' x

theorem Acts.regular {agree : FunctionTable → FunctionTable → Prop}
    {effect : Except Fault α → List (String × Ty) → Prop} {x : Lower α}
    (acts : Acts agree effect x) : Regular x where
  reports := acts.reports
  follows := acts.follows

namespace Regular

theorem bind {x : Lower α} {f : α → Lower β} (first : Regular x) (rest : ∀ a, Regular (f a)) :
    Regular (x >>= f) where
  reports := first.reports.bind fun a => (rest a).reports
  follows contexts := (first.follows contexts).bind fun a => (rest a).follows contexts

theorem pure (a : α) : Regular (Pure.pure a : Lower α) where
  reports := .pure a
  follows _ := .of_eq fun _ => rfl

theorem fail {cause : Cause} (other : cause.kind.isTypeError = false) (origin : Origin) :
    Regular (Lower.fail cause origin : Lower α) where
  reports _ _ _ := ⟨[], (List.append_nil _).symm, Fault.announcedBy_nil other⟩
  follows _ := .of_eq fun _ => rfl

theorem ofExcept {result : Except Cause α}
    (other : ∀ cause, result = .error cause → cause.kind.isTypeError = false) (origin : Origin) :
    Regular (Lower.ofExcept result origin) := by
  cases result with
  | ok value => exact .pure value
  | error cause => exact .fail (other cause rfl) origin

theorem get_bind {f : LowerState → Lower β} (rest : ∀ s, Regular (f s)) :
    Regular (get >>= f) where
  reports c s standard := (rest s).reports c s standard
  follows contexts := .get_bind fun s => (rest s).follows contexts

theorem env_bind {f : Environment → Lower β} (rest : ∀ env, Regular (f env)) :
    Regular (env >>= f) :=
  .get_bind fun s => rest s.env

/-- What is read of the context is no setting. -/
theorem read_bind {f : Context → Lower β} (same : ∀ {c c' : Context}, c.Relaxes c' → f c = f c')
    (rest : ∀ c, Regular (f c)) : Regular (read >>= f) where
  reports := .read_bind fun c => (rest c).reports
  follows {c _} contexts :=
    .read_bind (fun _ => .inr (by rw [same contexts])) ((rest c).follows contexts)

theorem modifies {f : LowerState → LowerState} (kept : ∀ s, (f s).announced = s.announced) :
    Regular (modify f) where
  reports := .modifies kept
  follows _ := .of_eq fun _ => rfl

theorem modifyEnv (f : Environment → Environment) : Regular (Lower.modifyEnv f) :=
  .modifies fun _ => rfl

theorem discard {x : Lower α} (regular : Regular x) : Regular (discard x) := by
  show Regular ((fun _ => ()) <$> x)
  rw [map_eq_pure_bind]
  exact regular.bind fun _ => .pure ()

theorem forM {f : α → Lower Unit} (each : ∀ a, Regular (f a)) (l : List α) :
    Regular (l.forM f) := by
  induction l with
  | nil => exact .pure ()
  | cons a l ih => exact (each a).bind fun _ => ih

theorem mapM {f : α → Lower β} (each : ∀ a, Regular (f a)) (l : List α) :
    Regular (l.mapM f) where
  reports := .mapM (fun a => (each a).reports) l
  follows contexts := .mapM (fun a => (each a).follows contexts) l

theorem dispatch {stage : Stage} {node : Node} {lower : Shape → Lower α}
    (staged : node.shape.stage = stage) (regular : Regular (lower node.shape))
    (take : Product → Option α) : Regular (Lower.dispatch stage node lower take) where
  reports := .dispatch staged regular.reports take
  follows contexts := .dispatch contexts staged (regular.follows contexts) take

end Regular

/-! ### Imports -/

/-- Loading an import depends on the source of summaries, which settings leave alone. -/
theorem regular_loadImport (imported : Source.Import) : Regular (loadImport imported) := by
  unfold loadImport
  refine .get_bind fun s => ?_
  have loaded : Regular (modify fun state =>
      { state with loaded := imported.moduleName :: state.loaded }) := .modifies fun _ => rfl
  split
  · exact .pure ()
  · refine .read_bind (fun contexts => by rw [contexts.source]) fun context => ?_
    split
    · exact (Regular.pure ()).bind fun _ => loaded
    · next summary _ =>
      refine (Regular.modifyEnv _).bind fun _ => ?_
      refine Regular.bind (.ofExcept (fun cause failed => ?_) _) fun _ => loaded
      obtain ⟨text, rfl⟩ := summary.fails_load s.env cause failed
      rfl

theorem regular_selectImports (imported : Source.Import) (functions types items : List String) :
    Regular (selectImports imported functions types items) := by
  induction items with
  | nil => exact .pure []
  | cons item items ih =>
      rw [selectImports]
      split
      · exact ih.bind fun _ => .pure _
      · split
        · exact ih
        · exact .fail rfl _

theorem regular_registerAlias (origin : Origin) (name key : String) :
    Regular (registerAlias origin name key) := by
  unfold registerAlias
  refine .env_bind fun env => ?_
  split
  · exact .modifyEnv _
  · exact .fail rfl _

theorem regular_processImport (imported : Source.Import) : Regular (processImport imported) := by
  unfold processImport
  refine (regular_loadImport imported).bind fun _ => ?_
  refine .env_bind fun env => ?_
  have aliased (names : List String) : Regular (names.forM fun name =>
      (ModulePath.qualifiedAliases name (ModulePath.shortName imported.moduleName)
        imported.importedAs).forM (registerAlias imported.origin name)) :=
    .forM (fun name => .forM (regular_registerAlias _ _) _) _
  dsimp only
  split
  · exact .pure ()
  · split
    · exact (Regular.pure _).bind aliased
    · exact (regular_selectImports _ _ _ _).bind aliased

/-! ### Declarations -/

theorem regular_registerPlaceholder (decl : Source.TypeDecl) :
    Regular (registerPlaceholder decl) :=
  .get_bind fun _ => .modifyEnv _

theorem regular_enterModule (name : String) : Regular (enterModule name) :=
  .modifies fun _ => rfl

theorem regular_registerType (decl : Source.TypeDecl) (ty : Ty) (typeParams : List TypeParam) :
    Regular (registerType decl ty typeParams) :=
  .get_bind fun _ => (Regular.modifyEnv _).bind fun _ => .pure _

theorem regular_registerConstructors (decl : Source.TypeDecl) (ty : Ty)
    (typeParams : List TypeParam) : Regular (registerConstructors decl ty typeParams) :=
  .get_bind fun _ => .modifyEnv _

theorem regular_lowerTypeDecl (decl : Source.TypeDecl) : Regular (lowerTypeDecl decl) := by
  refine .dispatch (stage_typeDecl decl) ?_ _
  unfold lowerTypeAs
  have params : Quiet Eq (declaredParams decl.typeParams decl.origin) := quiet_declaredParams _ _
  refine params.regular.bind fun typeParams => ?_
  have body (body : Source.TypeBody) : Quiet Eq (resolveBody decl.name decl.origin body) :=
    quiet_resolveBody _ _ _
  refine (Acts.regular ((body _).withTypeParams _)).bind fun ty => ?_
  refine (regular_registerType decl ty typeParams).bind fun lowered => ?_
  split
  · exact (regular_registerConstructors decl ty typeParams).bind fun _ => .pure _
  · exact .pure _

theorem regular_signatureOf (decl : Source.Function) : Regular (signatureOf decl) :=
  Acts.regular (quiet_signatureOf decl : Quiet Eq _)

theorem regular_declareFunction (decl : Source.Function) : Regular (declareFunction decl) := by
  refine (regular_signatureOf decl).bind fun sig => ?_
  refine .get_bind fun s => ?_
  exact (Regular.modifyEnv _).bind fun _ => .pure _

/-- All that comes before the bodies of functions. -/
theorem regular_lowerTypes (m : Source.Module) : Regular (lowerTypes m) := by
  refine (regular_enterModule m.name).bind fun _ => ?_
  refine Regular.bind (.forM regular_processImport _) fun _ => ?_
  refine Regular.bind (.forM regular_registerPlaceholder _) fun _ => ?_
  exact .mapM regular_lowerTypeDecl _

theorem regular_declares (decls : List Source.Function) : Regular (decls.forM declare) :=
  .forM (fun decl => (regular_declareFunction decl).discard) decls

theorem regular_assemble (m : Source.Module) (types : List Typed.TypeDecl)
    (functions : List Typed.Function) : Regular (assemble m types functions) :=
  .get_bind fun _ => .pure _

end Lower

end ModuleTyping
