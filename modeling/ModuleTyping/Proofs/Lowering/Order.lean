import ModuleTyping.Proofs.Lowering.Passes
import ModuleTyping.Proofs.SymbolTable.Reordering

/-!
# The order of functions

A module declares all its functions before it lowers the first of them. Declaring a
function resolves its signature, which does not look at other functions, and registers it;
declarations of functions with different names therefore commute, but for the order in
which the table lists them (`concur_of_perm`). Lowering a function looks functions up
by name, which does not see that order, and leaves nothing that another one would look at
(`Retags`). So a module may declare its functions in any order, and among its types
wherever it likes.
-/

namespace ModuleTyping

/-! ### Reordered states -/

theorem FunctionTable.alike_of_reordered {a b : FunctionTable}
    (same : a.table.Reordered b.table) : a.Alike b where
  entry? := same.get?_eq
  contains name := congrArg Option.isSome (same.canonicalName?_eq name)
  member? := member?_eq_of_reordered same

namespace LowerState

variable {r s t : LowerState}

theorem Alike.refl (s : LowerState) : s.Alike FunctionTable.Alike s :=
  ⟨rfl, rfl, .of_table rfl, rfl, rfl, rfl⟩

/-- The states differ in announcements, in effect tags and in the order in which functions
are listed, and in nothing else that a declaration reads. -/
structure Reordered (s t : LowerState) : Prop where
  alike : s.Alike (fun a b => a.table.Reordered b.table) t
  moduleName : s.moduleName = t.moduleName
  namespaceName : s.namespaceName = t.namespaceName

/-- The state after a function with this signature is declared. -/
def declared (s : LowerState) (decl : Source.Function) (sig : Signature) : LowerState :=
  let reg : Registration := {
    moduleName := some s.moduleName
    givenNamespace := s.namespaceName
    exported := decl.exported
    external := decl.isExternal
    origin := decl.origin }
  { s with env := { s.env with functions := s.env.functions.register sig reg } }

namespace Reordered

theorem refl (reachable : s.env.functions.table.Reachable) : s.Reordered s :=
  ⟨⟨rfl, rfl, .refl reachable, rfl, rfl, rfl⟩, rfl, rfl⟩

theorem trans (first : r.Reordered s) (second : s.Reordered t) : r.Reordered t where
  alike := first.alike.trans_of (fun same same' => same.trans same') second.alike
  moduleName := first.moduleName.trans second.moduleName
  namespaceName := first.namespaceName.trans second.namespaceName

theorem declared (same : s.Reordered t) (decl : Source.Function) (sig : Signature) :
    (s.declared decl sig).Reordered (t.declared decl sig) where
  alike := {
    same.alike with
    functions := by
      simp only [LowerState.declared, same.moduleName, same.namespaceName]
      exact same.alike.functions.register _ _ _ }
  moduleName := same.moduleName
  namespaceName := same.namespaceName

end Reordered

theorem declared_comm (reachable : s.env.functions.table.Reachable) {sig sig' : Signature}
    (different : sig.name ≠ sig'.name) (decl decl' : Source.Function) :
    ((s.declared decl sig).declared decl' sig').Reordered
      ((s.declared decl' sig').declared decl sig) where
  alike := ⟨rfl, rfl, reachable.register_comm different .., rfl, rfl, rfl⟩
  moduleName := rfl
  namespaceName := rfl

end LowerState

namespace Lower

variable {α β : Type} {c : Context} {s t : LowerState}

/-! ### Declaring functions -/

/-- Both runs fail, or both succeed and leave states that differ in order only. -/
def Concur (run run' : Except Fault Unit × LowerState) : Prop :=
  match run, run' with
  | (.ok _, s), (.ok _, t) => s.Reordered t
  | (.error _, _), (.error _, _) => True
  | _, _ => False

namespace Concur

theorem trans {run run' run'' : Except Fault Unit × LowerState} (first : Concur run run')
    (second : Concur run' run'') : Concur run run'' := by
  rcases run with ⟨_ | _, _⟩ <;> rcases run' with ⟨_ | _, _⟩ <;> rcases run'' with ⟨_ | _, _⟩
  all_goals try trivial
  exact LowerState.Reordered.trans first second

theorem bind {x x' : Lower Unit} {f g : Unit → Lower Unit} (first : Concur (x c s) (x' c t))
    (rest : ∀ s t, s.Reordered t → Concur (f () c s) (g () c t)) :
    Concur ((x >>= f) c s) ((x' >>= g) c t) := by
  rw [bind_apply, bind_apply]
  generalize x c s = run at first ⊢
  generalize x' c t = run' at first ⊢
  rcases run with ⟨_ | _, s'⟩ <;> rcases run' with ⟨_ | _, t'⟩
  · trivial
  · exact first.elim
  · exact first.elim
  · exact rest s' t' first

end Concur

theorem name_of_signatureOf (standard : c.engine = .standard) {decl : Source.Function}
    {sig : Signature} (ran : Yields c s (signatureOf decl) sig) : sig.name = decl.name := by
  unfold signatureOf at ran
  obtain ⟨typeParams, -, ran⟩ := ran.bind_quiet (quiet_declaredParams _ _) standard
  replace ran := ran.of_withTypeParams
  obtain ⟨params, -, ran⟩ := ran.bind_quiet (quiet_resolveAll _ _) standard
  obtain ⟨result, -, ran⟩ := ran.bind_quiet (quiet_resolve? _ _) standard
  cases ran
  rfl

/-- Whether a signature can be resolved, and to what, does not depend on the functions
there are. -/
theorem signatureOf_declared (standard : c.engine = .standard) (s : LowerState)
    (decl decl' : Source.Function) (sig : Signature) :
    (signatureOf decl c (s.declared decl' sig)).1 = (signatureOf decl c s).1 := by
  have quiet : Quiet (fun _ _ => True) (signatureOf decl) := quiet_signatureOf decl
  have alike : (s.declared decl' sig).Alike (fun _ _ => True) s :=
    ⟨rfl, rfl, trivial, rfl, rfl, rfl⟩
  exact (quiet.congr (.refl standard) alike).1

/-- Declares a function, for what that leaves in the state. -/
def declare (decl : Source.Function) : Lower Unit :=
  discard (declareFunction decl)

theorem declare_apply (decl : Source.Function) (c : Context) (s : LowerState) :
    declare decl c s =
      match signatureOf decl c s with
      | (.ok sig, t) => (.ok (), t.declared decl sig)
      | (.error fault, t) => (.error fault, t) := by
  have unfolded : declare decl = declareFunction decl >>= fun _ => pure () := by
    show (fun _ => ()) <$> declareFunction decl = _
    rw [map_eq_pure_bind]
  rw [unfolded, declareFunction, bind_assoc, bind_apply]
  rcases signatureOf decl c s with ⟨_ | _, _⟩ <;> rfl

theorem declare_of_ok (standard : c.engine = .standard) {decl : Source.Function}
    {sig : Signature} (resolved : Yields c s (signatureOf decl) sig) :
    declare decl c s = (.ok (), s.declared decl sig) := by
  have quiet : Quiet FunctionTable.Alike (signatureOf decl) := quiet_signatureOf decl
  rcases ran : signatureOf decl c s with ⟨r, after⟩
  obtain rfl : r = .ok sig := by rw [← resolved, ran]
  obtain ⟨names, rfl, rfl⟩ := quiet.run_ok standard ran
  rw [declare_apply, ran, LowerState.grown_nil]

theorem declare_of_error {decl : Source.Function} {fault : Fault}
    (refused : (signatureOf decl c s).1 = .error fault) :
    ∃ t, declare decl c s = (.error fault, t) := by
  rcases ran : signatureOf decl c s with ⟨r, after⟩
  obtain rfl : r = .error fault := by rw [← refused, ran]
  exact ⟨after, by rw [declare_apply, ran]⟩

theorem concur_declare (standard : c.engine = .standard) (same : s.Reordered t)
    (decl : Source.Function) : Concur (declare decl c s) (declare decl c t) := by
  have outcome := ((quiet_signatureOf decl).congr (.refl standard) same.alike).1
  rcases resolved : (signatureOf decl c s).1 with fault | sig
  · obtain ⟨s', refused⟩ := declare_of_error resolved
    obtain ⟨t', refused'⟩ := declare_of_error (outcome.symm.trans resolved)
    rw [refused, refused']
    trivial
  · rw [declare_of_ok standard resolved, declare_of_ok standard (outcome.symm.trans resolved)]
    exact same.declared decl sig

theorem concur_forM_declare (standard : c.engine = .standard) (same : s.Reordered t)
    (decls : List Source.Function) :
    Concur (decls.forM declare c s) (decls.forM declare c t) := by
  induction decls generalizing s t with
  | nil => exact same
  | cons decl decls ih => exact (concur_declare standard same decl).bind fun _ _ same => ih same

/-- Two functions with different names may be declared in either order. -/
theorem concur_swap (standard : c.engine = .standard)
    (reachable : s.env.functions.table.Reachable) {decl decl' : Source.Function}
    (different : decl.name ≠ decl'.name) :
    Concur ((declare decl >>= fun _ => declare decl') c s)
      ((declare decl' >>= fun _ => declare decl) c s) := by
  -- Each signature resolves alike before and after the other function is declared.
  have alone (decl decl' : Source.Function) (sig : Signature) :=
    signatureOf_declared standard s decl decl' sig
  rw [bind_apply, bind_apply]
  rcases resolved : (signatureOf decl c s).1 with fault | sig
  · obtain ⟨after, refused⟩ := declare_of_error resolved
    rcases resolved' : (signatureOf decl' c s).1 with fault' | sig'
    · obtain ⟨after', refused'⟩ := declare_of_error resolved'
      rw [refused, refused']
      trivial
    · obtain ⟨after', refused'⟩ := declare_of_error ((alone decl decl' sig').trans resolved)
      simp only [refused, declare_of_ok standard resolved', refused']
      trivial
  · rcases resolved' : (signatureOf decl' c s).1 with fault' | sig'
    · obtain ⟨after, refused⟩ := declare_of_error resolved'
      obtain ⟨after', refused'⟩ := declare_of_error ((alone decl' decl sig).trans resolved')
      simp only [refused, declare_of_ok standard resolved, refused']
      trivial
    · have named : sig.name ≠ sig'.name := by
        rwa [name_of_signatureOf standard resolved, name_of_signatureOf standard resolved']
      simp only [declare_of_ok standard resolved, declare_of_ok standard resolved',
        declare_of_ok standard ((alone decl decl' sig').trans resolved),
        declare_of_ok standard ((alone decl' decl sig).trans resolved')]
      exact LowerState.declared_comm reachable named decl decl'

/-- Functions with distinct names may be declared in any order. -/
theorem concur_of_perm (standard : c.engine = .standard) {decls decls' : List Source.Function}
    (perm : decls.Perm decls') (distinct : (decls.map Source.Function.name).Nodup)
    (same : s.Reordered t) : Concur (decls.forM declare c s) (decls'.forM declare c t) := by
  induction perm generalizing s t with
  | nil => exact same
  | cons decl _ ih =>
      have distinct := (List.nodup_cons.mp distinct).2
      exact (concur_declare standard same decl).bind fun _ _ same => ih distinct same
  | swap decl decl' decls =>
      have different : decl'.name ≠ decl.name := by
        rintro named
        simp [named] at distinct
      -- First the two in both orders, from one state; then the others, from what is left.
      refine (concur_forM_declare standard same (decl' :: decl :: decls)).trans ?_
      have swapped := concur_swap standard same.alike.functions.reachable' different
      have all := swapped.bind (f := fun _ => decls.forM declare) (g := fun _ => decls.forM declare)
        fun _ _ same => concur_forM_declare standard same decls
      rwa [bind_assoc, bind_assoc] at all
  | trans perm _ first second =>
      have distinct' := (perm.map Source.Function.name).nodup_iff.mp distinct
      refine (first distinct same).trans (second distinct' ?_)
      exact .refl same.alike.functions.reachable'

/-! ### Lowering functions -/

theorem Yields.bind_iff {x : Lower α} {f : α → Lower β} {b : β} :
    Yields c s (x >>= f) b ↔ ∃ a, Yields c s x a ∧ Yields c (x c s).2 (f a) b := by
  unfold Yields
  rw [bind_apply]
  rcases x c s with ⟨_ | _, _⟩ <;> simp

theorem Yields.length_mapM {f : α → Lower β} {l : List α} {bs : List β}
    (ran : Yields c s (l.mapM f) bs) : bs.length = l.length := by
  induction l generalizing s bs with
  | nil =>
      cases ran
      rfl
  | cons a l ih =>
      rw [List.mapM_cons] at ran
      simp only [Yields.bind_iff] at ran
      obtain ⟨b, -, rest, ran, built⟩ := ran
      cases built
      exact congrArg (· + 1) (ih ran)

/-- Computations that leave nothing for each other come to what each comes to alone. -/
theorem Retags.yields_mapM_iff {f : α → Lower β} (each : ∀ a, Retags (f a))
    (standard : c.engine = .standard) (alike : s.Alike FunctionTable.Alike t) {alone : α → β}
    (chosen : ∀ a b, Yields c s (f a) b → alone a = b) {l : List α} {bs : List β} :
    Yields c t (l.mapM f) bs ↔ (∀ a ∈ l, Yields c s (f a) (alone a)) ∧ bs = l.map alone := by
  have last (t : LowerState) (bs bs' : List β) : Yields c t (pure bs) bs' ↔ bs' = bs :=
    ⟨fun ran => (Except.ok.inj ran).symm, fun same => same ▸ rfl⟩
  induction l generalizing t bs with
  | nil =>
      rw [List.mapM_nil, last]
      simp
  | cons a l ih =>
      have after := alike.trans ((each a).frame t standard).alike
      have outcome (b : β) : Yields c t (f a) b ↔ Yields c s (f a) b := by
        unfold Yields
        rw [(each a).congr standard alike]
      rw [List.mapM_cons]
      simp only [Yields.bind_iff, outcome, ih after, last, List.forall_mem_cons, List.map_cons]
      constructor
      · rintro ⟨b, first, rest, ⟨others, rfl⟩, rfl⟩
        obtain rfl := chosen a b first
        exact ⟨⟨first, others⟩, rfl⟩
      · rintro ⟨⟨first, others⟩, rfl⟩
        exact ⟨alone a, first, l.map alone, ⟨others, rfl⟩, rfl⟩

/-- Declares functions and lowers them. -/
def lowerFunctions (decls : List Source.Function) : Lower (List Typed.Function) := do
  decls.forM declare
  decls.mapM lowerFunction

theorem lowerFunctions_apply (decls : List Source.Function) (c : Context) (s : LowerState) :
    lowerFunctions decls c s =
      match decls.forM declare c s with
      | (.ok _, t) => decls.mapM lowerFunction c t
      | (.error fault, t) => (.error fault, t) := by
  refine (bind_apply ..).trans ?_
  rcases decls.forM declare c s with ⟨_ | _, _⟩ <;> rfl

/-- What a function is lowered to in a state, if it is accepted there. -/
def loweredIn (c : Context) (s : LowerState) (decl : Source.Function) : Typed.Function :=
  match (lowerFunction decl c s).1 with
  | .ok lowered => lowered
  | .error _ => typedFunction decl { name := decl.name, params := [], result := .void } none []

theorem loweredIn_eq {decl : Source.Function} {lowered : Typed.Function}
    (ran : Yields c s (lowerFunction decl) lowered) : loweredIn c s decl = lowered := by
  unfold loweredIn
  rw [ran]

/-- Functions with distinct names are all lowered, each to the same in whichever order they
stand, or they are refused in every order. -/
theorem lowerFunctions_perm (standard : c.engine = .standard)
    (reachable : s.env.functions.table.Reachable) {decls decls' : List Source.Function}
    (perm : decls.Perm decls') (distinct : (decls.map Source.Function.name).Nodup) :
    (∃ lower : Source.Function → Typed.Function,
      Yields c s (lowerFunctions decls) (decls.map lower) ∧
      Yields c s (lowerFunctions decls') (decls'.map lower)) ∨
    ((∀ lowered, ¬ Yields c s (lowerFunctions decls) lowered) ∧
      ∀ lowered, ¬ Yields c s (lowerFunctions decls') lowered) := by
  have declared := concur_of_perm standard perm distinct (.refl reachable)
  unfold Yields
  rw [lowerFunctions_apply, lowerFunctions_apply]
  generalize decls.forM declare c s = run at declared ⊢
  generalize decls'.forM declare c s = run' at declared ⊢
  rcases run with ⟨_ | _, after⟩ <;> rcases run' with ⟨_ | _, after'⟩
  · exact .inr ⟨by rintro _ ⟨⟩, by rintro _ ⟨⟩⟩
  · exact declared.elim
  · exact declared.elim
  · -- Both are lowered from what the first order leaves, as far as they can tell.
    have alike : after.Alike FunctionTable.Alike after' :=
      { declared.alike with functions := FunctionTable.alike_of_reordered declared.alike.functions }
    have first {lowered : List Typed.Function} :
        Yields c after (decls.mapM lowerFunction) lowered ↔ _ :=
      Retags.yields_mapM_iff retags_lowerFunction standard (.refl after) fun _ _ => loweredIn_eq
    have second {lowered : List Typed.Function} :
        Yields c after' (decls'.mapM lowerFunction) lowered ↔ _ :=
      Retags.yields_mapM_iff retags_lowerFunction standard alike fun _ _ => loweredIn_eq
    simp only [perm.mem_iff] at first
    by_cases accepted : ∀ decl ∈ decls',
        Yields c after (lowerFunction decl) (loweredIn c after decl)
    · exact .inl ⟨loweredIn c after, first.mpr ⟨accepted, rfl⟩, second.mpr ⟨accepted, rfl⟩⟩
    · exact .inr ⟨fun _ ran => accepted (first.mp ran).1, fun _ ran => accepted (second.mp ran).1⟩

/-! ### Modules -/

/-- Lowers what stands in a module beside its functions. -/
def lowerTypes (m : Source.Module) : Lower (List Typed.TypeDecl) := do
  enterModule m.name
  m.imports.forM processImport
  m.types.forM registerPlaceholder
  m.types.mapM lowerTypeDecl

/-- Puts a module together from its lowered items. -/
def assemble (m : Source.Module) (types : List Typed.TypeDecl)
    (functions : List Typed.Function) : Lower Typed.Module := do
  return {
    name := m.name
    namespaceName := (← get).namespaceName
    items := weave m.items types functions }

theorem lowerModule_eq (m : Source.Module) :
    lowerModule m = (do
      let types ← lowerTypes m
      let functions ← lowerFunctions m.functions
      assemble m types functions) := by
  simp only [lowerModule, lowerTypes, lowerFunctions, bind_assoc]
  rfl

theorem settles_lowerTypes (m : Source.Module) : Settles (lowerTypes m) := by
  have lasting := LowerState.lasting_atRest
  refine (maintains_enterModule lasting m.name).bind fun _ => ?_
  refine Maintains.bind (.forM (maintains_processImport lasting) _) fun _ => ?_
  refine Maintains.bind (.forM (maintains_registerPlaceholder lasting) _) fun _ => ?_
  exact .mapM (maintains_lowerTypeDecl lasting) _

/-- The types and functions of the lowered items are the lowered types and functions. -/
theorem parts_weave (items : List Source.Item) {types : List Typed.TypeDecl}
    {functions : List Typed.Function}
    (types_length : types.length = (Source.Module.types ⟨"", [], items⟩).length)
    (functions_length : functions.length = (Source.Module.functions ⟨"", [], items⟩).length)
    (name : String) (space : Option String) :
    Typed.Module.types ⟨name, space, weave items types functions⟩ = types ∧
      Typed.Module.functions ⟨name, space, weave items types functions⟩ = functions := by
  induction items generalizing types functions with
  | nil =>
      exact ⟨(List.length_eq_zero_iff.mp types_length).symm,
        (List.length_eq_zero_iff.mp functions_length).symm⟩
  | cons item items ih =>
      cases item with
      | type decl =>
          obtain ⟨first, rest, rfl⟩ := List.exists_cons_of_length_eq_add_one types_length
          obtain ⟨types, functions⟩ := ih (Nat.succ.inj types_length) functions_length
          exact ⟨congrArg (first :: ·) types, functions⟩
      | function decl =>
          obtain ⟨first, rest, rfl⟩ := List.exists_cons_of_length_eq_add_one functions_length
          obtain ⟨types, functions⟩ := ih types_length (Nat.succ.inj functions_length)
          exact ⟨types, congrArg (first :: ·) functions⟩

theorem length_lowerTypes {m : Source.Module} {types : List Typed.TypeDecl}
    (ran : Yields c s (lowerTypes m) types) : types.length = m.types.length := by
  unfold lowerTypes at ran
  simp only [Yields.bind_iff] at ran
  obtain ⟨_, -, _, -, _, -, ran⟩ := ran
  exact ran.length_mapM

theorem length_lowerFunctions {decls : List Source.Function} {functions : List Typed.Function}
    (ran : Yields c s (lowerFunctions decls) functions) : functions.length = decls.length := by
  unfold lowerFunctions at ran
  rw [Yields.bind_iff] at ran
  obtain ⟨_, -, ran⟩ := ran
  exact ran.length_mapM

/-- A module is accepted if its functions are, after what stands beside them. -/
theorem accepted_of_functions {m : Source.Module} {types : List Typed.TypeDecl}
    {functions : List Typed.Function} (beside : Yields c s (lowerTypes m) types)
    (ran : Yields c (lowerTypes m c s).2 (lowerFunctions m.functions) functions) :
    ∃ lowered, Yields c s (lowerModule m) lowered := by
  simp only [lowerModule_eq, assemble, Yields.bind_iff]
  exact ⟨_, types, beside, functions, ran, _, rfl, rfl⟩

theorem functions_of_accepted {m : Source.Module} {lowered : Typed.Module}
    (ran : Yields c s (lowerModule m) lowered) :
    (∃ types, Yields c s (lowerTypes m) types) ∧
      Yields c (lowerTypes m c s).2 (lowerFunctions m.functions) lowered.functions := by
  simp only [lowerModule_eq, assemble, Yields.bind_iff] at ran
  obtain ⟨types, beside, functions, ran, _, -, built⟩ := ran
  cases built
  have types_length : types.length = m.types.length := length_lowerTypes beside
  have functions_length := length_lowerFunctions ran
  refine ⟨⟨types, beside⟩, ?_⟩
  rwa [(parts_weave m.items types_length functions_length _ _).2]

/-- The passes of a module that is lowered with success. -/
theorem passes_of_lowerModule {m : Source.Module} {lowered : Typed.Module}
    (ran : lowerModule m c s = (.ok lowered, t)) :
    ∃ s₁ s₂ s₃ s₄, m.imports.forM processImport c { s with
        moduleName := m.name, namespaceName := ModulePath.deriveNamespace (some m.name) } =
          (.ok (), s₁) ∧
      m.types.forM registerPlaceholder c s₁ = (.ok (), s₂) ∧
      m.types.mapM lowerTypeDecl c s₂ = (.ok lowered.types, s₃) ∧
      m.functions.forM declare c s₃ = (.ok (), s₄) ∧
      m.functions.mapM lowerFunction c s₄ = (.ok lowered.functions, t) := by
  rw [lowerModule_eq] at ran
  obtain ⟨types, s₃, beside, ran⟩ := ok_of_bind ran
  obtain ⟨functions, t, bodies, ran⟩ := ok_of_bind ran
  cases ran
  have types_length : types.length = m.types.length :=
    length_lowerTypes (congrArg Prod.fst beside)
  have functions_length := length_lowerFunctions (congrArg Prod.fst bodies)
  obtain ⟨sameTypes, sameFunctions⟩ :=
    parts_weave m.items types_length functions_length m.name t.namespaceName
  rw [sameTypes, sameFunctions]
  obtain ⟨_, _, enters, beside⟩ := ok_of_bind beside
  cases enters
  obtain ⟨_, s₁, imports, beside⟩ := ok_of_bind beside
  obtain ⟨_, s₂, placeholders, lowers⟩ := ok_of_bind beside
  obtain ⟨_, s₄, declares, bodies⟩ := ok_of_bind bodies
  exact ⟨s₁, s₂, s₃, s₄, imports, placeholders, lowers, declares, bodies⟩

/-- The order in which a module declares its functions, and where it declares them among its
types, does not matter. Two modules with the same name, imports and types and with the same
functions, whose names are distinct, are both refused, or both are accepted and each function
is lowered to the same in both. -/
theorem function_order_irrelevant (config : Config) (source : Option (String → Option Summary))
    (reachable : s.Reachable) {m m' : Source.Module} (name : m.name = m'.name)
    (imports : m.imports = m'.imports) (types : m.types = m'.types)
    (functions : m.functions.Perm m'.functions)
    (distinct : (m.functions.map Source.Function.name).Nodup) :
    match ((lowerModule m).run { config, source } s).1,
      ((lowerModule m').run { config, source } s).1 with
    | .ok lowered, .ok lowered' => ∃ lower : Source.Function → Typed.Function,
        lowered.functions = m.functions.map lower ∧ lowered'.functions = m'.functions.map lower
    | .error _, .error _ => True
    | _, _ => False := by
  have beside : lowerTypes m = lowerTypes m' := by
    unfold lowerTypes
    rw [name, imports, types]
  have atRest := settles_lowerTypes m { config, source } rfl s reachable.atRest
  -- What is left beside the functions is the same for both modules.
  have lowered := lowerFunctions_perm (c := { config, source }) rfl atRest.env.functions
    functions distinct
  unfold Lower.run
  rcases ran : (lowerModule m { config, source } s).1 with fault | a <;>
    rcases ran' : (lowerModule m' { config, source } s).1 with fault' | b
  · trivial
  · obtain ⟨⟨types, accepted⟩, ran'⟩ := functions_of_accepted ran'
    rw [← beside] at accepted ran'
    obtain ⟨lower, first, -⟩ | ⟨-, refused⟩ := lowered
    · obtain ⟨_, contrary⟩ := accepted_of_functions accepted first
      cases ran.symm.trans contrary
    · exact refused _ ran'
  · obtain ⟨⟨types, accepted⟩, ran⟩ := functions_of_accepted ran
    obtain ⟨lower, -, second⟩ | ⟨refused, -⟩ := lowered
    · rw [beside] at accepted second
      obtain ⟨_, contrary⟩ := accepted_of_functions accepted second
      cases ran'.symm.trans contrary
    · exact refused _ ran
  · obtain ⟨-, ran⟩ := functions_of_accepted ran
    obtain ⟨-, ran'⟩ := functions_of_accepted ran'
    rw [← beside] at ran'
    obtain ⟨lower, first, second⟩ | ⟨refused, -⟩ := lowered
    · exact ⟨lower, Except.ok.inj (ran.symm.trans first), Except.ok.inj (ran'.symm.trans second)⟩
    · exact (refused _ ran).elim

theorem function_order_irrelevant_mutual :
    let count : Source.TypeDecl := { name := "Count", body := .synonym (.named "i32") }
    let down (callee : String) : Source.Expr :=
      ⟨.call ⟨.var callee, none⟩
        [⟨.binary .sub ⟨.var "n", none⟩ ⟨.literal (.int 1), none⟩, none⟩], none⟩
    let parity (name other : String) (zero : Bool) : Source.Function := {
      name
      params := [{ name := "n", ty := .named "Count" }]
      result := some (.named "bool")
      body := some ⟨.ifElse ⟨.binary .eq ⟨.var "n", none⟩ ⟨.literal (.int 0), none⟩, none⟩
        ⟨.literal (.bool zero), none⟩ (some (down other)), none⟩ }
    let even := parity "even" "odd" true
    let odd := parity "odd" "even" false
    let m : Source.Module :=
      { name := "parity", items := [.function even, .type count, .function odd] }
    let m' : Source.Module :=
      { name := "parity", items := [.type count, .function odd, .function even] }
    ∃ lowered lowered', ((lowerModule m).run {} {}).1 = .ok lowered ∧
      ((lowerModule m').run {} {}).1 = .ok lowered' ∧
      ∃ lower : Source.Function → Typed.Function,
        lowered.functions = [lower even, lower odd] ∧
        lowered'.functions = [lower odd, lower even] := by
  intro count down parity even odd m m'
  have ok : ((lowerModule m).run {} {}).1.isOk = true := by decide +kernel
  have ok' : ((lowerModule m').run {} {}).1.isOk = true := by decide +kernel
  have name : m.name = m'.name := rfl
  have imports : m.imports = m'.imports := rfl
  have types : m.types = m'.types := rfl
  have listed : m.functions = [even, odd] := rfl
  have listed' : m'.functions = [odd, even] := rfl
  have functions : m.functions.Perm m'.functions := .swap odd even []
  have distinct : (m.functions.map Source.Function.name).Nodup := by
    show ["even", "odd"].Nodup
    decide
  clear_value m m'
  have same := function_order_irrelevant {} none .start name imports types functions distinct
  rcases ran : ((lowerModule m).run {} {}).1 with _ | lowered
  · rw [ran] at ok
    cases ok
  · rcases ran' : ((lowerModule m').run {} {}).1 with _ | lowered'
    · rw [ran'] at ok'
      cases ok'
    · rw [ran, ran', listed, listed'] at same
      exact ⟨lowered, lowered', rfl, rfl, same⟩

end Lower

end ModuleTyping
