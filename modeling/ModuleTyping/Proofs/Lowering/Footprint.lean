import ModuleTyping.Lowering.Basic
import ModuleTyping.Proofs.Inference.Announcements

/-!
# What a step of lowering reads and leaves

Below the level of declarations, lowering looks up names, types and functions, announces
mismatches and gives names their types in the innermost scope; it does nothing else.
`Lower.Acts` states that of one computation, for the standard rules: what it can look up
decides how it ends (`congr`), after it the state is the one before with some names bound
and some mismatches announced (`frame`), whether it succeeds or fails, and of all settings
the check of matches alone bears on it, which can only refuse it (`follows`). The property
is closed under the ways in which lowering is put together, so it is proved of each part
of the language from its parts.

How far two function tables have to agree is left open (`agree`): resolving types does not
look at them, and lowering expressions looks at them by name only.
-/

namespace ModuleTyping

/-- Names with their types, the most recent first. -/
abbrev Locals := List (String × Ty)

namespace Scopes

/-- Gives names their types in the innermost scope, so that the first of several for one
name stands. -/
def bindAll (scopes : Scopes) (names : Locals) : Scopes :=
  names.foldr (fun local_ scopes => scopes.bind local_.1 local_.2) scopes

@[simp] theorem bindAll_nil (scopes : Scopes) : scopes.bindAll [] = scopes := rfl

@[simp] theorem bindAll_cons (scopes : Scopes) (local_ : String × Ty) (names : Locals) :
    scopes.bindAll (local_ :: names) = (scopes.bindAll names).bind local_.1 local_.2 := rfl

theorem bindAll_append (scopes : Scopes) (later earlier : Locals) :
    scopes.bindAll (later ++ earlier) = (scopes.bindAll earlier).bindAll later :=
  List.foldr_append

@[simp] theorem outer_bindAll (scopes : Scopes) (names : Locals) :
    (scopes.bindAll names).outer = scopes.outer := by
  induction names with
  | nil => rfl
  | cons local_ names ih => exact ih

/-- Leaving a scope drops what was bound in it. -/
theorem pop_bindAll_push (scopes : Scopes) (names : Locals) :
    (scopes.push.bindAll names).pop = scopes := by
  simp [pop, push]

theorem lookup?_bind (scopes : Scopes) (bound name : String) (ty : Ty) :
    (scopes.bind bound ty).lookup? name =
      if name = bound then some ty else scopes.lookup? name := by
  simp only [lookup?, bind, List.findSome?_cons, Dict.get?_insert]
  by_cases same : name = bound
  · simp [same]
  · simp [same]

/-- The names bound last are found first. -/
theorem lookup?_bindAll (scopes : Scopes) (names : Locals) (name : String) :
    (scopes.bindAll names).lookup? name = (names.lookup name).or (scopes.lookup? name) := by
  induction names with
  | nil => rfl
  | cons local_ names ih =>
      rw [bindAll_cons, lookup?_bind, ih, List.lookup_cons]
      by_cases same : name = local_.1
      · simp [same]
      · simp [same, beq_false_of_ne same]

end Scopes

/-- No look-up by name tells the two tables apart. -/
structure FunctionTable.Alike (a b : FunctionTable) : Prop where
  entry? : ∀ name, a.entry? name = b.entry? name
  contains : ∀ name, a.contains name = b.contains name
  member? : ∀ container member, a.member? container member = b.member? container member

/-- The standard rules in both, and the same checks of matches. -/
structure Context.Alike (a b : Context) : Prop where
  standard : a.engine = .standard
  standard' : b.engine = .standard
  coverage : a.config.checkExhaustiveness = b.config.checkExhaustiveness

theorem Context.Alike.refl {context : Context} (standard : context.engine = .standard) :
    context.Alike context :=
  ⟨standard, standard, rfl⟩

/-- The standard rules and the same summaries in both, where the second context asks for no
check of matches that the first does not ask for. Other settings may differ. -/
structure Context.Relaxes (strict lenient : Context) : Prop where
  standard : strict.engine = .standard
  standard' : lenient.engine = .standard
  source : strict.source = lenient.source
  coverage : lenient.config.checkExhaustiveness = true →
    strict.config.checkExhaustiveness = true

theorem Context.Relaxes.equal_or_checks {c c' : Context} (contexts : c.Relaxes c') :
    c.config.checkExhaustiveness = c'.config.checkExhaustiveness ∨
      c.config.checkExhaustiveness = true ∧ c'.config.checkExhaustiveness = false := by
  have := contexts.coverage
  grind

namespace LowerState

/-- What lowering an expression can look up is the same in both states, where the function
tables need to agree as far as `agree` says. -/
structure Alike (agree : FunctionTable → FunctionTable → Prop) (s t : LowerState) : Prop where
  scopes : s.env.scopes = t.env.scopes
  types : s.env.types = t.env.types
  functions : agree s.env.functions t.env.functions
  constructors : s.env.constructors = t.env.constructors
  typeParams : s.typeParams = t.typeParams
  results : s.results = t.results

theorem Alike.trans_of {agree : FunctionTable → FunctionTable → Prop} {r s t : LowerState}
    (first : r.Alike agree s) (transitive : ∀ {a b d}, agree a b → agree b d → agree a d)
    (second : s.Alike agree t) : r.Alike agree t where
  scopes := first.scopes.trans second.scopes
  types := first.types.trans second.types
  functions := transitive first.functions second.functions
  constructors := first.constructors.trans second.constructors
  typeParams := first.typeParams.trans second.typeParams
  results := first.results.trans second.results

/-- The state with names bound in the innermost scope and mismatches announced. -/
def grown (s : LowerState) (names : Locals) (announced : List Mismatch) : LowerState :=
  { s with
    env := { s.env with scopes := s.env.scopes.bindAll names }
    announced := s.announced ++ announced }

@[simp] theorem grown_nil (s : LowerState) : s.grown [] [] = s := by
  simp [grown]

theorem grown_grown (s : LowerState) (names names' : Locals)
    (announced announced' : List Mismatch) :
    (s.grown names announced).grown names' announced' =
      s.grown (names' ++ names) (announced ++ announced') := by
  simp [grown, Scopes.bindAll_append]

end LowerState

namespace Lower

variable {α β : Type} {agree : FunctionTable → FunctionTable → Prop}

theorem bind_apply (x : Lower α) (f : α → Lower β) (context : Context) (s : LowerState) :
    (x >>= f) context s =
      match x context s with
      | (.ok a, t) => f a context t
      | (.error fault, t) => (.error fault, t) := by
  refine (Stateful.bind_apply (x context) (fun a => f a context) s).trans ?_
  rcases x context s with ⟨_ | _, _⟩ <;> rfl

/-- The outcome is the fault of a match that leaves variants uncovered, in a context that
checks for them where the other does not. -/
def Uncovered (c c' : Context) (r : Except Fault α) : Prop :=
  c.config.checkExhaustiveness ≠ c'.config.checkExhaustiveness ∧
    ∃ fault, r = .error fault ∧ fault.kind = .nonExhaustiveMatch

/-- From every state the computation does in the second context what it does in the first,
unless the first refuses a match that the second does not check. -/
def Follows (c c' : Context) (x : Lower α) : Prop :=
  ∀ s, Uncovered c c' (x c s).1 ∨ x c s = x c' s

namespace Follows

variable {c c' : Context}

theorem of_eq {x : Lower α} (same : ∀ s, x c s = x c' s) : Follows c c' x :=
  fun s => .inr (same s)

theorem bind {x : Lower α} {f : α → Lower β} (first : Follows c c' x)
    (rest : ∀ a, Follows c c' (f a)) : Follows c c' (x >>= f) := by
  intro s
  rw [bind_apply, bind_apply]
  rcases first s with ⟨differ, fault, failed, kind⟩ | same
  · generalize x c s = run at failed ⊢
    obtain ⟨r, t⟩ := run
    obtain rfl : r = .error fault := failed
    exact .inl ⟨differ, fault, rfl, kind⟩
  · rw [same]
    rcases x c' s with ⟨fault | a, t⟩
    · exact .inr rfl
    · exact rest a t

theorem get_bind {f : LowerState → Lower β} (rest : ∀ s, Follows c c' (f s)) :
    Follows c c' (get >>= f) :=
  fun s => rest s s

/-- What is read of the context may itself be a setting. -/
theorem read_bind {f : Context → Lower β}
    (settings : ∀ s, Uncovered c c' (f c c' s).1 ∨ f c c' s = f c' c' s)
    (rest : Follows c c' (f c)) : Follows c c' (read >>= f) := by
  intro s
  rcases rest s with uncovered | same
  · exact .inl uncovered
  · rcases settings s with uncovered | same'
    · exact .inl (show Uncovered c c' (f c c s).1 from same ▸ uncovered)
    · exact .inr (same.trans same')

theorem placed {x : Lower α} (follows : Follows c c' x) (origin : Origin) :
    Follows c c' (Lower.placed origin x) := by
  intro s
  unfold Lower.placed
  rcases follows s with ⟨differ, fault, failed, kind⟩ | same
  · generalize x c s = run at failed ⊢
    obtain ⟨r, t⟩ := run
    obtain rfl : r = .error fault := failed
    exact .inl ⟨differ, _, rfl, kind⟩
  · exact .inr (by rw [same])

theorem between {x : Lower α} (follows : Follows c c' x) (enter leave : LowerState → LowerState) :
    Follows c c' (Lower.between enter leave x) := by
  intro s
  rcases follows (enter s) with uncovered | same
  · exact .inl uncovered
  · exact .inr (congrArg (fun run : Except Fault α × LowerState => (run.1, leave run.2)) same)

theorem mapM {f : α → Lower β} (each : ∀ a, Follows c c' (f a)) (l : List α) :
    Follows c c' (l.mapM f) := by
  induction l with
  | nil => exact .of_eq fun _ => rfl
  | cons a l ih =>
      rw [List.mapM_cons]
      exact (each a).bind fun _ => ih.bind fun _ => .of_eq fun _ => rfl

end Follows

/-- With the standard rules, the outcome of a computation depends on what it can look up
only, the state after it is the one before, grown, and no setting but the check of matches
bears on it. `effect` says for each outcome which names may have been bound. -/
structure Acts (agree : FunctionTable → FunctionTable → Prop)
    (effect : Except Fault α → Locals → Prop) (x : Lower α) : Prop where
  congr : ∀ {c c' : Context} {s t : LowerState}, c.Alike c' → s.Alike agree t →
    (x c s).1 = (x c' t).1 ∧ (x c s).2.Alike agree (x c' t).2
  frame : ∀ {c : Context} (s : LowerState), c.engine = .standard →
    ∃ names announced, (x c s).2 = s.grown names announced ∧
      Announces (x c s).1 announced ∧ effect (x c s).1 names
  follows : ∀ {c c' : Context}, c.Relaxes c' → Follows c c' x

/-- A success binds what `binds` says, and a fault leaves nothing bound. -/
def Declares (binds : α → Locals → Prop) : Except Fault α → Locals → Prop
  | .ok a, names => binds a names
  | .error _, names => names = []

/-- A success binds what `binders` says; a fault may come after some of it. -/
def Binds (binders : α → Locals) : Except Fault α → Locals → Prop
  | .ok a, names => names = binders a
  | .error _, _ => True

/-- The computation leaves nothing but announcements. -/
abbrev Quiet (agree : FunctionTable → FunctionTable → Prop) (x : Lower α) : Prop :=
  Acts agree (Declares fun _ names => names = []) x

namespace Acts

theorem mono {effect effect' : Except Fault α → Locals → Prop} {x : Lower α}
    (acts : Acts agree effect x) (weaker : ∀ r names, effect r names → effect' r names) :
    Acts agree effect' x := by
  refine ⟨acts.congr, fun s standard => ?_, acts.follows⟩
  obtain ⟨names, announced, after, announces, bound⟩ := acts.frame s standard
  exact ⟨names, announced, after, announces, weaker _ _ bound⟩

theorem binds {binders : α → Locals} {declared : α → Locals → Prop} {x : Lower α}
    (acts : Acts agree (Declares declared) x)
    (tells : ∀ a names, declared a names → names = binders a) : Acts agree (Binds binders) x := by
  refine acts.mono fun r names bound => ?_
  cases r with
  | ok a => exact tells a names bound
  | error fault => trivial

theorem bind {effect : Except Fault α → Locals → Prop} {effect' : Except Fault β → Locals → Prop}
    {g : α → Except Fault β → Locals → Prop} {x : Lower α} {f : α → Lower β}
    (first : Acts agree effect x) (rest : ∀ a, Acts agree (g a) (f a))
    (fails : ∀ fault names, effect (.error fault) names → effect' (.error fault) names)
    (joins : ∀ a names r names', effect (.ok a) names → g a r names' →
      effect' r (names' ++ names)) :
    Acts agree effect' (x >>= f) := by
  constructor
  · intro c c' s t contexts states
    obtain ⟨outcome, after⟩ := first.congr contexts states
    rw [bind_apply, bind_apply]
    generalize x c s = run at outcome after ⊢
    generalize x c' t = run' at outcome after ⊢
    obtain ⟨r, s'⟩ := run
    obtain ⟨r', t'⟩ := run'
    obtain rfl : r = r' := outcome
    cases r with
    | ok a => exact (rest a).congr contexts after
    | error fault => exact ⟨rfl, after⟩
  · intro c s standard
    obtain ⟨names, announced, after, announces, bound⟩ := first.frame s standard
    rw [bind_apply]
    generalize x c s = run at after announces bound ⊢
    obtain ⟨r, s'⟩ := run
    obtain rfl : s' = s.grown names announced := after
    cases r with
    | error fault => exact ⟨names, announced, rfl, announces, fails fault names bound⟩
    | ok a =>
        obtain rfl : announced = [] := announces
        obtain ⟨names', announced', after, announces, bound'⟩ :=
          (rest a).frame (s.grown names []) standard
        refine ⟨names' ++ names, announced', ?_, announces, joins a names _ names' bound bound'⟩
        exact after.trans (s.grown_grown names names' [] announced')
  · intro c c' contexts
    exact (first.follows contexts).bind fun a => (rest a).follows contexts

/-- A success announces nothing, so the names it binds are all it leaves. -/
theorem run_ok {effect : Except Fault α → Locals → Prop} {x : Lower α} {c : Context}
    {s after : LowerState} {a : α} (acts : Acts agree effect x) (standard : c.engine = .standard)
    (ran : x c s = (.ok a, after)) : ∃ names, effect (.ok a) names ∧ after = s.grown names [] := by
  obtain ⟨names, announced, left, announces, bound⟩ := acts.frame s standard
  rw [ran] at left announces bound
  obtain rfl : announced = [] := announces
  exact ⟨names, bound, left⟩

theorem run_error {declared : α → Locals → Prop} {x : Lower α} {c : Context}
    {s after : LowerState} {fault : Fault} (acts : Acts agree (Declares declared) x)
    (standard : c.engine = .standard) (ran : x c s = (.error fault, after)) :
    after = { s with announced := after.announced } := by
  obtain ⟨names, announced, left, -, bound⟩ := acts.frame s standard
  rw [ran] at left bound
  obtain rfl : names = [] := bound
  obtain rfl : after = s.grown [] announced := left
  rfl

end Acts

namespace Quiet

theorem after {x : Lower α} (quiet : Quiet agree x) {c : Context} (s : LowerState)
    (standard : c.engine = .standard) : ∃ announced, (x c s).2 = s.grown [] announced := by
  obtain ⟨names, announced, after, -, bound⟩ := quiet.frame s standard
  have none_bound : names = [] := by
    generalize (x c s).1 = r at bound
    cases r <;> exact bound
  exact ⟨announced, none_bound ▸ after⟩

/-- What comes after a quiet computation decides the effect of the whole. -/
theorem bind {declared : β → Locals → Prop} {x : Lower α} {f : α → Lower β}
    (first : Quiet agree x) (rest : ∀ a, Acts agree (Declares declared) (f a)) :
    Acts agree (Declares declared) (x >>= f) := by
  refine Acts.bind first rest (fun _ _ bound => bound) fun a names r names' none_bound bound => ?_
  obtain rfl : names = [] := none_bound
  rwa [List.append_nil]

theorem bind_binds {binders : β → Locals} {x : Lower α} {f : α → Lower β}
    (first : Quiet agree x) (rest : ∀ a, Acts agree (Binds binders) (f a)) :
    Acts agree (Binds binders) (x >>= f) := by
  refine Acts.bind first rest (fun _ _ _ => trivial) fun a names r names' none_bound bound => ?_
  obtain rfl : names = [] := none_bound
  rwa [List.append_nil]

end Quiet

namespace Acts

theorem pure {effect : Except Fault α → Locals → Prop} {a : α} (none_bound : effect (.ok a) []) :
    Acts agree effect (Pure.pure a) where
  congr _ states := ⟨rfl, states⟩
  frame s _ := ⟨[], [], s.grown_nil.symm, rfl, none_bound⟩
  follows _ := .of_eq fun _ => rfl

/-- Where only the scope around counts, any two steps may follow each other. -/
theorem bind_any {effect : Except Fault α → Locals → Prop}
    {g : α → Except Fault β → Locals → Prop} {x : Lower α} {f : α → Lower β}
    (first : Acts agree effect x) (rest : ∀ a, Acts agree (g a) (f a)) :
    Acts agree (fun _ _ => True) (x >>= f) :=
  first.bind rest (fun _ _ _ => trivial) fun _ _ _ _ _ _ => trivial

/-- A value made of the result binds what the result binds. -/
theorem map {first : α → Locals} {last : β → Locals} {x : Lower α} {f : α → β}
    (acts : Acts agree (Binds first) x) (same : ∀ a, last (f a) = first a) :
    Acts agree (Binds last) (do let a ← x; return f a) := by
  refine acts.bind (g := fun a r names => r = .ok (f a) ∧ names = [])
    (fun a => .pure ⟨rfl, rfl⟩) (fun _ _ _ => trivial) ?_
  rintro a names r _ rfl ⟨rfl, rfl⟩
  exact (same a).symm

/-- Two steps whose bindings make up those of what is returned. -/
theorem both {γ : Type} {first : α → Locals} {second : β → Locals} {joined : γ → Locals}
    {x : Lower α} {y : Lower β} {f : α → β → γ} (acts : Acts agree (Binds first) x)
    (acts' : Acts agree (Binds second) y)
    (joins : ∀ a b, joined (f a b) = second b ++ first a) :
    Acts agree (Binds joined) (do let a ← x; let b ← y; return f a b) := by
  -- The bindings of the second step are told by `b`, of which only `f a b` is returned.
  have rest (a : α) : Acts agree
      (fun r names => ∀ c, r = .ok c → ∃ b, c = f a b ∧ names = second b)
      (do let b ← y; return f a b) := by
    refine acts'.bind (g := fun b r names => r = .ok (f a b) ∧ names = [])
      (fun b => .pure ⟨rfl, rfl⟩) nofun ?_
    rintro b names r _ rfl ⟨rfl, rfl⟩ c returned
    exact ⟨b, (Except.ok.inj returned).symm, rfl⟩
  refine acts.bind rest (fun _ _ _ => trivial) ?_
  rintro a names r names' rfl returned
  cases r with
  | error fault => trivial
  | ok c =>
      obtain ⟨b, rfl, rfl⟩ := returned c rfl
      exact (joins a b).symm

theorem fail {declared : α → Locals → Prop} {cause : Cause}
    (other : cause.kind.isTypeError = false) (origin : Origin) :
    Acts agree (Declares declared) (Lower.fail cause origin) where
  congr _ states := ⟨rfl, states⟩
  frame s _ := ⟨[], [], s.grown_nil.symm, Fault.announcedBy_nil other, rfl⟩
  follows _ := .of_eq fun _ => rfl

theorem ofExcept {result : Except Cause α}
    (other : ∀ cause, result = .error cause → cause.kind.isTypeError = false) (origin : Origin) :
    Quiet agree (Lower.ofExcept result origin) := by
  cases result with
  | ok value => exact .pure rfl
  | error cause => exact .fail (other cause rfl) origin

/-- A check reads nothing of the state and announces what its outcome calls for. -/
theorem check {x : Check α} (candid : x.Candid) : Quiet agree (Lower.check x) where
  congr {c c' s t} _ states := by
    refine ⟨?_, states.scopes, states.types, states.functions, states.constructors,
      states.typeParams, states.results⟩
    show (x s.announced).1 = (x t.announced).1
    rw [candid.steady s.announced, candid.steady t.announced]
  frame {c} s _ := by
    have run : Lower.check x c s = ((x []).1, s.grown [] (x []).2) := by
      show ((x s.announced).1, { s with announced := (x s.announced).2 }) = _
      rw [candid.steady s.announced]
      rfl
    refine ⟨[], (x []).2, ?_, ?_, ?_⟩
    · rw [run]
    · rw [run]
      exact candid.announces
    · cases (Lower.check x c s).1 <;> rfl
  follows _ := .of_eq fun _ => rfl

/-! ### Reading -/

theorem get_bind {effect : Except Fault β → Locals → Prop} {f : LowerState → Lower β}
    (same : ∀ s t, LowerState.Alike agree s t → f s = f t)
    (rest : ∀ s, Acts agree effect (f s)) : Acts agree effect (get >>= f) where
  congr {c c' s t} contexts states := by
    show (f s c s).1 = (f t c' t).1 ∧ (f s c s).2.Alike agree (f t c' t).2
    rw [same s t states]
    exact (rest t).congr contexts states
  frame s standard := (rest s).frame s standard
  follows contexts := .get_bind fun s => (rest s).follows contexts

theorem env_bind {effect : Except Fault β → Locals → Prop} {f : Environment → Lower β}
    (same : ∀ s t, LowerState.Alike agree s t → f s.env = f t.env)
    (rest : ∀ env, Acts agree effect (f env)) : Acts agree effect (env >>= f) :=
  get_bind (f := fun s => f s.env) same fun s => rest s.env

theorem read_bind {effect : Except Fault β → Locals → Prop} {f : Context → Lower β}
    (same : ∀ c c', Context.Alike c c' → f c = f c')
    (settings : ∀ c c', Context.Relaxes c c' → ∀ s,
      Uncovered c c' (f c c' s).1 ∨ f c c' s = f c' c' s)
    (rest : ∀ c, Acts agree effect (f c)) : Acts agree effect (read >>= f) where
  congr {c c' s t} contexts states := by
    show (f c c s).1 = (f c' c' t).1 ∧ (f c c s).2.Alike agree (f c' c' t).2
    rw [same c c' contexts]
    exact (rest c').congr contexts states
  frame {c} s standard := (rest c).frame s standard
  follows {c c'} contexts := .read_bind (settings c c' contexts) ((rest c).follows contexts)

/-! ### Places and scopes -/

theorem placed {declared : α → Locals → Prop} {x : Lower α}
    (acts : Acts agree (Declares declared) x) (origin : Origin) :
    Acts agree (Declares declared) (Lower.placed origin x) := by
  constructor
  · intro c c' s t contexts states
    obtain ⟨outcome, after⟩ := acts.congr contexts states
    unfold Lower.placed
    generalize x c s = run at outcome after ⊢
    generalize x c' t = run' at outcome after ⊢
    obtain ⟨r, s'⟩ := run
    obtain ⟨r', t'⟩ := run'
    obtain rfl : r = r' := outcome
    cases r <;> exact ⟨rfl, after⟩
  · intro c s standard
    obtain ⟨names, announced, after, announces, bound⟩ := acts.frame s standard
    unfold Lower.placed
    generalize x c s = run at after announces bound ⊢
    obtain ⟨r, s'⟩ := run
    cases r with
    | ok a => exact ⟨names, announced, after, announces, bound⟩
    | error fault => exact ⟨names, announced, after, announces, bound⟩
  · intro c c' contexts
    exact (acts.follows contexts).placed origin

/-- A change of the state that is taken back at the end, also after a fault. -/
theorem between {effect effect' : Except Fault α → Locals → Prop} {x : Lower α}
    {enter leave : LowerState → LowerState} (acts : Acts agree effect x)
    (enters : ∀ s t, LowerState.Alike agree s t → (enter s).Alike agree (enter t))
    (leaves : ∀ s t, LowerState.Alike agree s t → (leave s).Alike agree (leave t))
    (back : ∀ s r names announced, effect r names →
      ∃ kept, leave ((enter s).grown names announced) = s.grown kept announced ∧ effect' r kept) :
    Acts agree effect' (Lower.between enter leave x) := by
  constructor
  · intro c c' s t contexts states
    obtain ⟨outcome, after⟩ := acts.congr contexts (enters s t states)
    exact ⟨outcome, leaves _ _ after⟩
  · intro c s standard
    obtain ⟨names, announced, after, announces, bound⟩ := acts.frame (enter s) standard
    obtain ⟨kept, restored, bound⟩ := back s _ names announced bound
    exact ⟨kept, announced, (congrArg leave after).trans restored, announces, bound⟩
  · intro c c' contexts
    exact (acts.follows contexts).between enter leave

/-- A scope of its own leaves nothing of what is bound in it. -/
theorem inScope {effect : Except Fault α → Locals → Prop} {x : Lower α}
    (acts : Acts agree effect x) : Quiet agree (Lower.inScope x) := by
  refine acts.between ?_ ?_ ?_
  · intro s t states
    refine { states with scopes := ?_ }
    exact congrArg Scopes.push states.scopes
  · intro s t states
    refine { states with scopes := ?_ }
    exact congrArg Scopes.pop states.scopes
  · intro s r names announced _
    refine ⟨[], ?_, by cases r <;> rfl⟩
    simp [LowerState.grown, Scopes.pop_bindAll_push]

theorem withTypeParams {effect : Except Fault α → Locals → Prop} {x : Lower α}
    (acts : Acts agree effect x) (params : List TypeParam) :
    Acts agree effect (Lower.withTypeParams params x) := by
  refine acts.between ?_ ?_ ?_
  · intro s t states
    exact { states with typeParams := congrArg (params.reverse ++ ·) states.typeParams }
  · intro s t states
    exact { states with typeParams := congrArg (List.drop params.length) states.typeParams }
  · intro s r names announced bound
    refine ⟨names, ?_, bound⟩
    simp [LowerState.grown]

theorem withResult {effect : Except Fault α → Locals → Prop} {x : Lower α}
    (acts : Acts agree effect x) (result : Ty) :
    Acts agree effect (Lower.withResult result x) := by
  refine acts.between ?_ ?_ ?_
  · intro s t states
    exact { states with results := congrArg (result :: ·) states.results }
  · intro s t states
    exact { states with results := congrArg (List.drop 1) states.results }
  · intro s r names announced bound
    exact ⟨names, rfl, bound⟩

theorem bind_name (name : String) (ty : Ty) :
    Acts agree (Declares fun _ names => names = [(name, ty)]) (Lower.bind name ty) where
  congr {c c' s t} _ states := by
    refine ⟨rfl, { states with scopes := ?_ }⟩
    exact congrArg (Scopes.bind · name ty) states.scopes
  frame s _ := by
    refine ⟨[(name, ty)], [], ?_, rfl, rfl⟩
    simp only [LowerState.grown, List.append_nil]
    rfl
  follows _ := .of_eq fun _ => rfl

/-- Binding a name as the last step. -/
theorem bind_name_pure {declared : α → Locals → Prop} {a : α} {name : String} {ty : Ty}
    (bound : declared a [(name, ty)]) :
    Acts agree (Declares declared) (do Lower.bind name ty; return a) := by
  refine (bind_name name ty).bind (g := fun _ r names => r = .ok a ∧ names = [])
    (fun _ => .pure ⟨rfl, rfl⟩) (fun _ _ none_bound => none_bound) ?_
  rintro _ names r _ rfl ⟨rfl, rfl⟩
  exact bound

end Acts

/-! ### The standard rules -/

/-- A part is offered to the standard rules of its stage, and the one for its shape takes
it. -/
theorem choose?_standard (node : Node) :
    Engine.standard.choose? node.shape.stage node = some (.standard node.shape) := by
  have rules (stage : Stage) : Engine.standard.rules stage =
      (Shape.all.filter fun shape => shape.stage = stage).map Rule.standard := by
    cases stage <;> rfl
  rw [Engine.choose?, rules]
  cases shape : node.shape <;> simp [Shape.all, Shape.stage, Rule.standard, shape]

theorem read_bind_apply (f : Context → Lower α) (context : Context) (s : LowerState) :
    (read >>= f) context s = f context context s := rfl

theorem dispatch_standard {context : Context} (standard : context.engine = .standard)
    {stage : Stage} {node : Node} (staged : node.shape.stage = stage) (lower : Shape → Lower α)
    (take : Product → Option α) (s : LowerState) :
    dispatch stage node lower take context s =
      placed node.origin (lower node.shape) context s := by
  have fits : node.fits node.shape = true := by
    cases node <;> simp [Node.fits]
  have chosen : context.engine.choose? stage node = some (.standard node.shape) := by
    rw [standard, ← staged, choose?_standard]
  unfold dispatch
  rw [read_bind_apply, chosen]
  simp only [Rule.standard, fits, if_true]

theorem Follows.dispatch {c c' : Context} {stage : Stage} {node : Node} {lower : Shape → Lower α}
    (contexts : c.Relaxes c') (staged : node.shape.stage = stage)
    (follows : Follows c c' (lower node.shape)) (take : Product → Option α) :
    Follows c c' (Lower.dispatch stage node lower take) := by
  intro s
  rw [dispatch_standard contexts.standard staged, dispatch_standard contexts.standard' staged]
  exact follows.placed node.origin s

theorem Acts.dispatch {declared : α → Locals → Prop} {stage : Stage} {node : Node}
    {lower : Shape → Lower α} (staged : node.shape.stage = stage)
    (acts : Acts agree (Declares declared) (lower node.shape)) (take : Product → Option α) :
    Acts agree (Declares declared) (Lower.dispatch stage node lower take) := by
  have placed := acts.placed node.origin
  constructor
  · intro c c' s t contexts states
    rw [dispatch_standard contexts.standard staged, dispatch_standard contexts.standard' staged]
    exact placed.congr contexts states
  · intro c s standard
    rw [dispatch_standard standard staged]
    exact placed.frame s standard
  · intro c c' contexts
    exact .dispatch contexts staged (acts.follows contexts) take

theorem stage_expr (e : Source.Expr) (expected : Option Ty) :
    (Node.expr e expected).shape.stage = .expression := by
  obtain ⟨form, origin⟩ := e
  cases form <;> rfl

theorem stage_stmt (stmt : Source.Stmt) : (Node.stmt stmt).shape.stage = .statement := by
  obtain ⟨form, origin⟩ := stmt
  cases form <;> rfl

/-! ### Successes -/

/-- The computation succeeds with this value. -/
def Yields (c : Context) (s : LowerState) (x : Lower α) (a : α) : Prop :=
  (x c s).1 = .ok a

namespace Yields

variable {c : Context} {s : LowerState} {a : α} {b : β}

/-- A success of two steps is one of each, the second in the state that the first leaves. -/
theorem bind {effect : Except Fault α → Locals → Prop} {x : Lower α} {f : α → Lower β}
    (ran : Yields c s (x >>= f) b) (acts : Acts FunctionTable.Alike effect x)
    (standard : c.engine = .standard) :
    ∃ a names, Yields c s x a ∧ effect (.ok a) names ∧ Yields c (s.grown names []) (f a) b := by
  rw [Yields, bind_apply] at ran
  rcases first : x c s with ⟨fault | a, after⟩
  · rw [first] at ran
    cases ran
  · obtain ⟨names, bound, rfl⟩ := acts.run_ok standard first
    rw [first] at ran
    exact ⟨a, names, congrArg Prod.fst first, bound, ran⟩

theorem bind_quiet {x : Lower α} {f : α → Lower β} (ran : Yields c s (x >>= f) b)
    (quiet : Quiet FunctionTable.Alike x) (standard : c.engine = .standard) :
    ∃ a, Yields c s x a ∧ Yields c s (f a) b := by
  obtain ⟨a, names, first, rfl, rest⟩ := ran.bind quiet standard
  rw [LowerState.grown_nil] at rest
  exact ⟨a, first, rest⟩

theorem get_bind {f : LowerState → Lower β} (ran : Yields c s (get >>= f) b) :
    Yields c s (f s) b := ran

theorem env_bind {f : Environment → Lower β} (ran : Yields c s (env >>= f) b) :
    Yields c s (f s.env) b := ran

theorem read_bind {f : Context → Lower β} (ran : Yields c s (read >>= f) b) :
    Yields c s (f c) b := ran

theorem of_inScope {x : Lower α} (ran : Yields c s (Lower.inScope x) a) :
    Yields c { s with env := { s.env with scopes := s.env.scopes.push } } x a := ran

theorem of_withTypeParams {x : Lower α} {params : List TypeParam}
    (ran : Yields c s (Lower.withTypeParams params x) a) :
    Yields c { s with typeParams := params.reverse ++ s.typeParams } x a := ran

theorem of_withResult {x : Lower α} {result : Ty}
    (ran : Yields c s (Lower.withResult result x) a) :
    Yields c { s with results := result :: s.results } x a := ran

/-- A check that passes has passed whatever was announced before. -/
theorem of_check {x : Check α} (ran : Yields c s (Lower.check x) a) :
    (x s.announced).1 = .ok a := ran

theorem of_dispatch {stage : Stage} {node : Node} {lower : Shape → Lower α}
    {take : Product → Option α} (ran : Yields c s (Lower.dispatch stage node lower take) a)
    (staged : node.shape.stage = stage) (standard : c.engine = .standard) :
    Yields c s (lower node.shape) a := by
  rw [Yields, dispatch_standard standard staged, placed] at ran
  rw [Yields]
  generalize lower node.shape c s = run at ran ⊢
  rcases run with ⟨fault | b, after⟩
  · cases ran
  · exact ran

end Yields

/-- A success after a quiet computation is one in the same state. -/
theorem Quiet.ok_of_bind {c : Context} {s t : LowerState} {x : Lower α} {f : α → Lower β} {b : β}
    (quiet : Quiet FunctionTable.Alike x) (standard : c.engine = .standard)
    (ran : (x >>= f) c s = (.ok b, t)) : ∃ a, Yields c s x a ∧ f a c s = (.ok b, t) := by
  obtain ⟨a, r, first, rest⟩ := Stateful.ok_of_bind ran
  obtain ⟨names, rfl, rfl⟩ := quiet.run_ok standard first
  rw [LowerState.grown_nil] at rest
  exact ⟨a, congrArg Prod.fst first, rest⟩

theorem ok_of_dispatch {c : Context} {s t : LowerState} {stage : Stage} {node : Node}
    {lower : Shape → Lower α} {take : Product → Option α} {a : α}
    (standard : c.engine = .standard) (staged : node.shape.stage = stage)
    (ran : dispatch stage node lower take c s = (.ok a, t)) :
    lower node.shape c s = (.ok a, t) := by
  rw [dispatch_standard standard staged] at ran
  unfold placed at ran
  generalize lower node.shape c s = run at ran ⊢
  rcases run with ⟨fault | a, r⟩ <;> cases ran
  rfl

end Lower

end ModuleTyping
