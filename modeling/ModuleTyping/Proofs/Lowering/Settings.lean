import ModuleTyping.Proofs.Lowering.Steps

/-!
# What settings bear on

The level of events plays no part in lowering. Whether effects are worked out decides the
effect tags of lowered functions and nothing else: what is noted of effects is never looked
up again. The check of matches can only refuse a module, for a match that leaves variants
uncovered. So passes over one module with different settings come to the same, up to tags
and up to such a refusal.
-/

namespace ModuleTyping

namespace Typed

/-- The function without its effect tags. -/
def Function.untagged (decl : Function) : Function :=
  { decl with effects := [] }

/-- The item without effect tags. -/
def Item.untagged : Item → Item
  | .type decl => .type decl
  | .function decl => .function decl.untagged

/-- The module without effect tags. -/
def Module.untagged (m : Module) : Module :=
  { m with items := m.items.map Item.untagged }

theorem Module.types_untagged (m : Module) : m.untagged.types = m.types := by
  unfold types untagged
  rw [List.filterMap_map]
  congr 1
  funext item
  cases item <;> rfl

theorem Module.functions_untagged (m : Module) :
    m.untagged.functions = m.functions.map Function.untagged := by
  unfold functions untagged
  rw [List.filterMap_map, List.map_filterMap]
  congr 1
  funext item
  cases item <;> rfl

end Typed

/-- A summary holds no effect tags. -/
theorem Summary.ofModule_untagged (m : Typed.Module) : ofModule m.untagged = ofModule m := by
  unfold ofModule
  rw [m.types_untagged, m.functions_untagged, List.filter_map, List.map_map]
  rfl

/-- Lowered functions are put in their places whatever their tags. -/
theorem map_untagged_weave (items : List Source.Item) (types : List Typed.TypeDecl)
    (functions : List Typed.Function) :
    (weave items types functions).map Typed.Item.untagged =
      weave items types (functions.map Typed.Function.untagged) := by
  induction items generalizing types functions with
  | nil => rfl
  | cons item items ih =>
      cases item with
      | type decl =>
          cases types with
          | nil => rfl
          | cons lowered types => exact congrArg _ (ih types functions)
      | function decl =>
          cases functions with
          | nil => rfl
          | cons lowered functions => exact congrArg _ (ih types functions)

namespace Lower

variable {α β : Type} {c c' : Context} {s t : LowerState}

/-! ### Working out effects -/

/-- From states that differ in what is known of effects at most, one computation in the first
context and one in the second come to the same, as far as `view` shows, and leave states that
differ as little. -/
def Matches {γ : Type} (c c' : Context) (view : α → γ) (x x' : Lower α) : Prop :=
  ∀ s t : LowerState, s.Retagged t →
    (x c s).1.map view = (x' c' t).1.map view ∧ (x c s).2.Retagged (x' c' t).2

namespace Matches

variable {γ δ : Type} {view : α → γ} {view' : β → δ}

theorem pure {a a' : α} (same : view a = view a') :
    Matches c c' view (Pure.pure a) (Pure.pure a') :=
  fun _ _ retagged => ⟨congrArg Except.ok same, retagged⟩

theorem of_quiet (contexts : Context.Alike c c') {x : Lower α}
    (quiet : Quiet FunctionTable.Alike x) : Matches c c' id x x := by
  intro s t retagged
  refine ⟨congrArg _ (quiet.congr contexts retagged.alike).1, ?_⟩
  exact ((quiet.retags.frame s contexts.standard).symm.trans retagged).trans
    (quiet.retags.frame t contexts.standard')

theorem bind {x x' : Lower α} {f f' : α → Lower β} (first : Matches c c' view x x')
    (rest : ∀ a a', view a = view a' → Matches c c' view' (f a) (f' a')) :
    Matches c c' view' (x >>= f) (x' >>= f') := by
  intro s t retagged
  obtain ⟨outcome, after⟩ := first s t retagged
  rw [bind_apply, bind_apply]
  generalize x c s = run at outcome after ⊢
  generalize x' c' t = run' at outcome after ⊢
  rcases run with ⟨fault | a, s'⟩ <;> rcases run' with ⟨fault' | a', t'⟩
  · obtain rfl := Except.error.inj outcome
    exact ⟨rfl, after⟩
  · cases outcome
  · cases outcome
  · exact rest a a' (Except.ok.inj outcome) s' t' after

theorem dispatch (contexts : Context.Alike c c') {stage : Stage} {node : Node}
    {lower : Shape → Lower α} (staged : node.shape.stage = stage)
    (same : Matches c c' view (lower node.shape) (lower node.shape)) (take : Product → Option α) :
    Matches c c' view (Lower.dispatch stage node lower take)
      (Lower.dispatch stage node lower take) := by
  intro s t retagged
  obtain ⟨outcome, after⟩ := same s t retagged
  rw [dispatch_standard contexts.standard staged, dispatch_standard contexts.standard' staged]
  unfold placed
  generalize lower node.shape c s = run at outcome after ⊢
  generalize lower node.shape c' t = run' at outcome after ⊢
  rcases run with ⟨fault | a, s'⟩ <;> rcases run' with ⟨fault' | a', t'⟩
  · obtain rfl := Except.error.inj outcome
    exact ⟨rfl, after⟩
  · cases outcome
  · cases outcome
  · exact ⟨outcome, after⟩

theorem mapM {f : α → Lower β} (each : ∀ a, Matches c c' view' (f a) (f a)) (l : List α) :
    Matches c c' (List.map view') (l.mapM f) (l.mapM f) := by
  induction l with
  | nil => exact .pure rfl
  | cons a l ih =>
      rw [List.mapM_cons]
      refine (each a).bind fun b b' first => ih.bind fun bs bs' rest => .pure ?_
      rw [List.map_cons, List.map_cons, first, rest]

end Matches

theorem matches_tagEffects (contexts : Context.Alike c c') (decl : Source.Function)
    (sig : Signature) (body : Option Typed.Expr) :
    Matches c c' (fun _ => ()) (tagEffects decl sig body) (tagEffects decl sig body) := by
  intro s t retagged
  have succeeds (c : Context) (s : LowerState) :
      (tagEffects decl sig body c s).1.map (fun _ => ()) = .ok () := by
    unfold tagEffects
    rw [read_bind_apply]
    split <;> rfl
  have frame := retags_tagEffects decl sig body
  exact ⟨(succeeds c s).trans (succeeds c' t).symm,
    ((frame.frame s contexts.standard).symm.trans retagged).trans
      (frame.frame t contexts.standard')⟩

theorem matches_lowerFunction (contexts : Context.Alike c c') (decl : Source.Function) :
    Matches c c' Typed.Function.untagged (lowerFunction decl) (lowerFunction decl) := by
  refine .dispatch contexts rfl ?_ _
  rw [lowerFunctionForm_eq]
  refine (Matches.of_quiet contexts (quiet_signatureOf decl)).bind ?_
  rintro sig _ rfl
  refine (Matches.of_quiet contexts (quiet_lowerBody? decl sig)).bind ?_
  rintro body _ rfl
  exact (matches_tagEffects contexts decl sig body).bind fun _ _ _ => .pure rfl

/-- The functions of a module, lowered in both contexts, are put together alike. -/
theorem matches_assemble (m : Source.Module) (types : List Typed.TypeDecl)
    {functions functions' : List Typed.Function}
    (same : functions.map Typed.Function.untagged = functions'.map Typed.Function.untagged) :
    Matches c c' Typed.Module.untagged
      (assemble m types functions) (assemble m types functions') := by
  intro s t retagged
  refine ⟨congrArg Except.ok ?_, retagged⟩
  have space : s.namespaceName = t.namespaceName := congrArg (·.namespaceName) retagged
  simp only [Typed.Module.untagged, map_untagged_weave, same, space]

/-! ### The check of matches -/

/-- Where both contexts check matches or neither does, nothing is refused. -/
theorem Follows.eq {x : Lower α} (follows : Follows c c' x)
    (coverage : c.config.checkExhaustiveness = c'.config.checkExhaustiveness) (s : LowerState) :
    x c s = x c' s := by
  rcases follows s with ⟨differ, -⟩ | same
  · exact absurd coverage differ
  · exact same

theorem follows_lowerFunction (contexts : c.Relaxes c')
    (effects : c.config.analyzeEffects = c'.config.analyzeEffects) (decl : Source.Function) :
    Follows c c' (lowerFunction decl) := by
  refine .dispatch contexts rfl ?_ _
  rw [lowerFunctionForm_eq]
  refine ((regular_signatureOf decl).follows contexts).bind fun sig => ?_
  refine ((quiet_lowerBody? decl sig).follows contexts).bind fun body => ?_
  refine Follows.bind ?_ fun tags => .of_eq fun _ => rfl
  refine .read_bind (fun s => .inr (by rw [effects])) ?_
  split
  · exact .of_eq fun _ => rfl
  · exact .of_eq fun _ => rfl

theorem follows_lowerModule (contexts : c.Relaxes c')
    (effects : c.config.analyzeEffects = c'.config.analyzeEffects) (m : Source.Module) :
    Follows c c' (lowerModule m) := by
  rw [lowerModule_eq]
  refine ((regular_lowerTypes m).follows contexts).bind fun types => ?_
  refine Follows.bind ?_ fun functions => (regular_assemble m types functions).follows contexts
  refine ((regular_declares _).follows contexts).bind fun _ => ?_
  exact .mapM (follows_lowerFunction contexts effects) _

/-! ### Both -/

theorem map_outcome_bind {γ : Type} {view : β → γ} {x : Lower α} {f : α → Lower β}
    (same : x c s = x c' s) (rest : ∀ a t, (f a c t).1.map view = (f a c' t).1.map view) :
    ((x >>= f) c s).1.map view = ((x >>= f) c' s).1.map view := by
  rw [bind_apply, bind_apply, same]
  rcases x c' s with ⟨fault | a, t⟩
  · rfl
  · exact rest a t

/-- Up to the bodies of functions nothing depends on settings, and from there on only tags
do. -/
theorem lowerModule_untagged (contexts : c.Relaxes c')
    (coverage : c.config.checkExhaustiveness = c'.config.checkExhaustiveness)
    (m : Source.Module) (s : LowerState) :
    (lowerModule m c s).1.map Typed.Module.untagged =
      (lowerModule m c' s).1.map Typed.Module.untagged := by
  have alike : Context.Alike c c' := ⟨contexts.standard, contexts.standard', coverage⟩
  rw [lowerModule_eq]
  refine map_outcome_bind (((regular_lowerTypes m).follows contexts).eq coverage s)
    fun types t => ?_
  unfold lowerFunctions
  rw [bind_assoc]
  refine map_outcome_bind (((regular_declares _).follows contexts).eq coverage t) fun _ u => ?_
  have bodies := (Matches.mapM (matches_lowerFunction alike) m.functions).bind
    fun _ _ same => matches_assemble m types same
  exact (bodies u u rfl).1

/-- Neither the level of events nor whether effects are worked out changes the fault that a
module is rejected with, the module it is lowered to, up to effect tags, or the summary of
that. Without the check of matches a module is lowered as it is with the check, unless the
check refuses a match in it. -/
theorem settings_do_not_interfere (config : Config) (level : Level) (effects : Bool)
    (source : Option (String → Option Summary)) (m : Source.Module) (s : LowerState) :
    let outcome (config : Config) := ((lowerModule m).run { config, source } s).1
    let adjusted := { config with eventLevel := level, analyzeEffects := effects }
    (outcome config).map Typed.Module.untagged =
        (outcome adjusted).map Typed.Module.untagged ∧
      (outcome config).map Summary.ofModule = (outcome adjusted).map Summary.ofModule ∧
      (outcome { config with checkExhaustiveness := false } =
          outcome { config with checkExhaustiveness := true } ∨
        ∃ fault, outcome { config with checkExhaustiveness := true } = .error fault ∧
          fault.kind = .nonExhaustiveMatch) := by
  intro outcome adjusted
  have contexts : Context.Relaxes { config, source } { config := adjusted, source } :=
    ⟨rfl, rfl, rfl, id⟩
  have untagged : (outcome config).map Typed.Module.untagged =
      (outcome adjusted).map Typed.Module.untagged :=
    lowerModule_untagged contexts rfl m s
  refine ⟨untagged, ?_, ?_⟩
  · have summarized (config : Config) : (outcome config).map Summary.ofModule =
        ((outcome config).map Typed.Module.untagged).map Summary.ofModule := by
      cases outcome config with
      | ok lowered => exact congrArg Except.ok (Summary.ofModule_untagged lowered).symm
      | error fault => rfl
    rw [summarized, untagged, ← summarized]
  · have contexts : Context.Relaxes
        { config := { config with checkExhaustiveness := true }, source }
        { config := { config with checkExhaustiveness := false }, source } :=
      ⟨rfl, rfl, rfl, fun _ => rfl⟩
    rcases follows_lowerModule contexts rfl m s with ⟨-, refused⟩ | same
    · exact .inr refused
    · exact .inl (congrArg Prod.fst same).symm

end Lower

end ModuleTyping
