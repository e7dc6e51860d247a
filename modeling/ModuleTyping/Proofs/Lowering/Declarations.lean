import ModuleTyping.Lowering.Declarations
import ModuleTyping.Proofs.Lowering.Bodies

/-!
# Lowering one declaration

`Elaborates` is carried on from bodies to declarations of functions and types, and to the items
of a module. A function is lowered with nothing around it but the tables and its own type
parameters, and all that lowering it changes is what is known of effects (`Retags`): neither
what can be looked up afterwards nor how another function is lowered depends on that. A type is
registered as what it stands for (`LowerState.withDeclaration`), so it matters which types are
declared before it (`Elaborates.Items`).
-/

namespace ModuleTyping

/-! ### States after declarations of types -/

/-- What is known of a declared type before it is lowered. -/
def Source.TypeDecl.placeholder (decl : Source.TypeDecl) : TypeInfo where
  name := decl.name
  ty := .abstract decl.name
  typeParams := decl.typeParams

namespace LowerState

/-- How a declared type is registered. -/
def registrationOf (s : LowerState) (decl : Source.TypeDecl) : Registration where
  moduleName := some s.moduleName
  givenNamespace := s.namespaceName
  exported := decl.exported
  external := false
  origin := decl.origin

/-- The state after a type is registered. -/
def withType (s : LowerState) (decl : Source.TypeDecl) (info : TypeInfo) : LowerState :=
  { s with env := { s.env with types := s.env.types.register info (s.registrationOf decl) } }

/-- The state after the constructors of a type are registered. -/
def withConstructors (s : LowerState) (decl : Source.TypeDecl) (info : TypeInfo) : LowerState :=
  let (_, constructors, functions) :=
    s.env.constructors.registerSum s.env.functions info (s.registrationOf decl)
  { s with env := { s.env with constructors, functions } }

/-- The state after a type is declared. -/
def withDeclaration (s : LowerState) (decl : Source.TypeDecl) (info : TypeInfo) : LowerState :=
  match decl.body with
  | .sum _ => (s.withType decl info).withConstructors decl info
  | _ => s.withType decl info

/-- The state after types are made known by their names. -/
def withPlaceholders (s : LowerState) (decls : List Source.TypeDecl) : LowerState :=
  decls.foldl (fun s decl => s.withType decl decl.placeholder) s

end LowerState

/-! ### The relation -/

/-- The tables, with type parameters in scope. -/
def Environment.surroundings (env : Environment) (typeParams : List TypeParam) : Surroundings where
  types := env.types
  functions := env.functions
  constructors := env.constructors
  typeParams := typeParams.reverse

namespace Elaborates

/-- The typed function has the parts of the source: its signature, resolved, and its body. -/
structure Function (env : Environment) (decl : Source.Function) (lowered : Typed.Function) :
    Prop where
  name : lowered.name = decl.name
  typeParams : TypeParam.normalize decl.typeParams = .ok lowered.typeParams
  params : List.Forall₂
    (fun param param' => param'.name = param.name ∧
      (env.surroundings lowered.typeParams).Resolves param.ty param'.ty)
    decl.params lowered.params
  result : ∀ written, decl.result = some written →
    (env.surroundings lowered.typeParams).Resolves written lowered.result
  noResult : decl.result = none → lowered.result = .void
  body : Option.Rel
    (Expr (env.surroundings lowered.typeParams) (Typed.paramBinders lowered.params))
    decl.body lowered.body
  exported : lowered.exported = decl.exported
  external : lowered.external = decl.isExternal

/-- What the body of a declared type stands for: the same fields or variants in the same
order, with what is written in them resolved. -/
inductive TypeBody (S : Surroundings) (name : String) : Source.TypeBody → Ty → Prop
  | record {fields : List (String × WrittenType)} {fields' : List (String × Ty)} :
      List.Forall₂ (fun field field' => field'.1 = field.1 ∧ S.Resolves field.2 field'.2)
        fields fields' →
      TypeBody S name (.record fields) (.record name fields')
  | sum {variants : List (String × List WrittenType)} {variants' : List (String × List Ty)} :
      List.Forall₂ (fun variant variant' => variant'.1 = variant.1 ∧
        List.Forall₂ S.Resolves variant.2 variant'.2) variants variants' →
      TypeBody S name (.sum variants) (.sum name variants')
  | abstract : TypeBody S name .abstract (.abstract name)
  | synonym {target : WrittenType} {ty : Ty} : S.Resolves target ty →
      TypeBody S name (.synonym target) ty

/-- The typed declaration has the parts of the source, with what is written in it resolved. -/
structure TypeDecl (env : Environment) (decl : Source.TypeDecl) (lowered : Typed.TypeDecl) :
    Prop where
  name : lowered.name = decl.name
  typeParams : TypeParam.normalize decl.typeParams = .ok lowered.typeParams
  body : TypeBody (env.surroundings lowered.typeParams) decl.name decl.body lowered.ty
  exported : lowered.exported = decl.exported

/-- There is one typed item for each item of the source, in the same order, and it has the
parts of the source. What is written in a type is resolved with the tables as they are when its
declaration is reached, which are those after the declarations of types before it. What is
written in a function is resolved with the tables `final`, where all types are declared. -/
inductive Items (final : Environment) :
    LowerState → List Source.Item → List Typed.Item → Prop
  | nil {s : LowerState} : Items final s [] []
  | function {s : LowerState} {decl : Source.Function} {lowered : Typed.Function}
      {items : List Source.Item} {items' : List Typed.Item} :
      Function final decl lowered → Items final s items items' →
      Items final s (.function decl :: items) (.function lowered :: items')
  | type {s : LowerState} {decl : Source.TypeDecl} {lowered : Typed.TypeDecl}
      {items : List Source.Item} {items' : List Typed.Item} :
      TypeDecl s.env decl lowered → Items final (s.withDeclaration decl lowered.info) items items' →
      Items final s (.type decl :: items) (.type lowered :: items')

end Elaborates

/-! ### Effect tags -/

namespace FunctionTable.Alike

variable {a b d : FunctionTable}

theorem of_table (same : a.table = b.table) : a.Alike b where
  entry? name := by rw [FunctionTable.entry?, same, FunctionTable.entry?]
  contains name := by rw [FunctionTable.contains, same, FunctionTable.contains]
  member? container member := by simp only [FunctionTable.member?, same]

theorem trans (first : a.Alike b) (second : b.Alike d) : a.Alike d where
  entry? name := (first.entry? name).trans (second.entry? name)
  contains name := (first.contains name).trans (second.contains name)
  member? container member :=
    (first.member? container member).trans (second.member? container member)

end FunctionTable.Alike

theorem FunctionTable.table_replaceEffects (functions : FunctionTable) (name : String)
    (tags : List Effect) : (functions.replaceEffects name tags).2.table = functions.table := by
  unfold replaceEffects
  split <;> rfl

namespace LowerState

theorem Alike.trans {r s t : LowerState} (first : r.Alike FunctionTable.Alike s)
    (second : s.Alike FunctionTable.Alike t) : r.Alike FunctionTable.Alike t :=
  first.trans_of FunctionTable.Alike.trans second

/-- The state without what is known of effects and what was announced. -/
def untagged (s : LowerState) : LowerState :=
  { s with
    env := { s.env with functions := { s.env.functions with tags := ∅ } }
    announced := [] }

/-- The two states differ in effect tags and announcements at most. -/
def Retagged (s t : LowerState) : Prop :=
  s.untagged = t.untagged

namespace Retagged

variable {r s t : LowerState}

theorem symm (retagged : s.Retagged t) : t.Retagged s :=
  Eq.symm retagged

theorem trans (first : r.Retagged s) (second : s.Retagged t) : r.Retagged t :=
  Eq.trans first second

theorem scopes (retagged : s.Retagged t) : s.env.scopes = t.env.scopes :=
  congrArg (·.env.scopes) retagged

theorem types (retagged : s.Retagged t) : s.env.types = t.env.types :=
  congrArg (·.env.types) retagged

theorem table (retagged : s.Retagged t) : s.env.functions.table = t.env.functions.table :=
  congrArg (·.env.functions.table) retagged

theorem constructors (retagged : s.Retagged t) : s.env.constructors = t.env.constructors :=
  congrArg (·.env.constructors) retagged

theorem typeParams (retagged : s.Retagged t) : s.typeParams = t.typeParams :=
  congrArg (·.typeParams) retagged

theorem results (retagged : s.Retagged t) : s.results = t.results :=
  congrArg (·.results) retagged

/-- Nothing that lowering looks up differs. -/
theorem alike (retagged : s.Retagged t) : s.Alike FunctionTable.Alike t where
  scopes := retagged.scopes
  types := retagged.types
  functions := .of_table retagged.table
  constructors := retagged.constructors
  typeParams := retagged.typeParams
  results := retagged.results

end Retagged

end LowerState

open Typed (paramBinders)

namespace TypeParam

/-- Parameters are accepted one by one, each with a constraint that is known. -/
theorem ok_of_normalize_cons {param : TypeParam} {rest normalized : List TypeParam}
    (accepted : normalize (param :: rest) = .ok normalized) :
    ∃ rest', normalize rest = .ok rest' ∧
      normalized = { param with constraint := Constraint.written? param.constraint } :: rest' ∧
      ∀ constraint, Constraint.written? param.constraint = some constraint →
        Constraint.known constraint = .ok () := by
  rw [normalize] at accepted
  generalize Constraint.written? param.constraint = constraint at accepted
  have later (accepted : (do
      let rest ← normalize rest
      return { param with constraint } :: rest) = Except.ok normalized) :
      ∃ rest', normalize rest = .ok rest' ∧ normalized = { param with constraint } :: rest' := by
    cases rests : normalize rest with
    | error cause =>
        rw [rests] at accepted
        cases accepted
    | ok rest' =>
        rw [rests] at accepted
        cases accepted
        exact ⟨rest', rfl, rfl⟩
  cases constraint with
  | none =>
      obtain ⟨rest', rests, rfl⟩ := later accepted
      exact ⟨rest', rests, rfl, by rintro _ ⟨⟩⟩
  | some constraint =>
      dsimp only at accepted
      cases known : Constraint.known constraint with
      | error cause =>
          rw [known] at accepted
          cases accepted
      | ok _ =>
          rw [known] at accepted
          obtain ⟨rest', rests, rfl⟩ := later accepted
          exact ⟨rest', rests, rfl, by rintro _ ⟨⟩; exact known⟩

theorem names_of_normalize {typeParams normalized : List TypeParam}
    (accepted : normalize typeParams = .ok normalized) :
    normalized.map TypeParam.name = typeParams.map TypeParam.name := by
  induction typeParams generalizing normalized with
  | nil =>
      cases accepted
      rfl
  | cons param rest ih =>
      obtain ⟨rest', rests, rfl, -⟩ := ok_of_normalize_cons accepted
      rw [List.map_cons, List.map_cons, ih rests]

/-- The constraints of accepted parameters are known. -/
theorem known_of_normalize {typeParams normalized : List TypeParam}
    (accepted : normalize typeParams = .ok normalized) :
    ∀ param ∈ normalized, ∀ constraint, param.constraint = some constraint →
      Constraint.known constraint = .ok () := by
  induction typeParams generalizing normalized with
  | nil =>
      cases accepted
      rintro _ ⟨⟩
  | cons param rest ih =>
      obtain ⟨rest', rests, rfl, known⟩ := ok_of_normalize_cons accepted
      exact List.forall_mem_cons.mpr ⟨known, ih rests⟩

end TypeParam

namespace Lower

variable {α β : Type} {agree : FunctionTable → FunctionTable → Prop}
variable {c : Context} {s t : LowerState}

/-! ### Signatures and bodies -/

theorem isTypeError_of_normalize {params : List TypeParam} {cause : Cause}
    (failed : TypeParam.normalize params = .error cause) : cause.kind.isTypeError = false := by
  induction params with
  | nil => cases failed
  | cons param params ih =>
      rw [TypeParam.normalize] at failed
      have later (failed : (do
          let rest ← TypeParam.normalize params
          return { param with constraint := Constraint.written? param.constraint } :: rest) =
            Except.error cause) : cause.kind.isTypeError = false := by
        cases normalized : TypeParam.normalize params with
        | ok rest =>
            rw [normalized] at failed
            cases failed
        | error cause =>
            rw [normalized] at failed
            cases failed
            exact ih normalized
      split at failed
      · unfold Constraint.known at failed
        split at failed
        · exact later failed
        · cases failed
          rfl
      · exact later failed

theorem quiet_declaredParams (params : List TypeParam) (origin : Origin) :
    Quiet agree (declaredParams params origin) :=
  .ofExcept (fun _ => isTypeError_of_normalize) origin

theorem normalize_of_declaredParams {params params' : List TypeParam} {origin : Origin}
    (ran : Yields c s (declaredParams params origin) params') :
    TypeParam.normalize params = .ok params' := by
  unfold declaredParams ofExcept at ran
  split at ran
  · next normalized =>
    cases ran
    exact normalized
  · cases ran

theorem quiet_signatureOf (decl : Source.Function) : Quiet agree (signatureOf decl) := by
  unfold signatureOf
  refine (quiet_declaredParams _ _).bind fun typeParams => ?_
  refine Acts.withTypeParams ?_ typeParams
  refine (quiet_resolveAll _ _).bind fun params => ?_
  exact (quiet_resolve? _ _).bind fun result => .pure rfl

theorem quiet_lowerBody (decl : Source.Function) (sig : Signature) (params : List Typed.Param)
    (body : Source.Expr) : Quiet FunctionTable.Alike (lowerBody decl sig params body) := by
  unfold lowerBody
  refine Acts.withTypeParams (.inScope ((binds_bindParams params).bind_any
    (g := fun _ => Declares fun _ names => names = []) fun _ => ?_)) sig.typeParams
  refine Acts.withResult ?_ sig.result
  refine (quiet_lowerExpr body _).bind fun body => ?_
  split
  · exact .pure rfl
  · exact Quiet.bind (.check (Check.candid_compatible _ _ _ _)) fun _ => .pure rfl

theorem quiet_resolveFields (origin : Origin) (fields : List (String × WrittenType)) :
    Quiet agree (resolveFields origin fields) := by
  induction fields with
  | nil => exact .pure rfl
  | cons field fields ih =>
      rw [resolveFields]
      refine (quiet_resolve _ _).bind fun _ => ?_
      exact ih.bind fun _ => .pure rfl

theorem quiet_resolveVariants (origin : Origin) (variants : List (String × List WrittenType)) :
    Quiet agree (resolveVariants origin variants) := by
  induction variants with
  | nil => exact .pure rfl
  | cons variant variants ih =>
      rw [resolveVariants]
      refine (quiet_resolveAll _ _).bind fun _ => ?_
      exact ih.bind fun _ => .pure rfl

theorem quiet_resolveBody (name : String) (origin : Origin) (body : Source.TypeBody) :
    Quiet agree (resolveBody name origin body) := by
  cases body with
  | record fields => exact (quiet_resolveFields _ _).bind fun _ => .pure rfl
  | sum variants => exact (quiet_resolveVariants _ _).bind fun _ => .pure rfl
  | abstract => exact .pure rfl
  | synonym target => exact quiet_resolve _ _

/-! ### Declared types -/

theorem resolves_resolveFields {S : Surroundings} {Γ : Locals} (standard : c.engine = .standard)
    (stands : Stands S Γ s) {origin : Origin} {fields : List (String × WrittenType)}
    {fields' : List (String × Ty)} (ran : Yields c s (resolveFields origin fields) fields') :
    List.Forall₂ (fun field field' => field'.1 = field.1 ∧ S.Resolves field.2 field'.2)
      fields fields' := by
  induction fields generalizing fields' with
  | nil =>
      cases ran
      exact .nil
  | cons field fields ih =>
      rw [resolveFields] at ran
      obtain ⟨ty, resolved, ran⟩ := ran.bind_quiet (quiet_resolve _ _) standard
      obtain ⟨rest, lowered, ran⟩ := ran.bind_quiet (quiet_resolveFields _ _) standard
      cases ran
      exact .cons ⟨rfl, resolves_resolve standard stands origin _ resolved⟩ (ih lowered)

theorem resolves_resolveVariants {S : Surroundings} {Γ : Locals}
    (standard : c.engine = .standard) (stands : Stands S Γ s) {origin : Origin}
    {variants : List (String × List WrittenType)} {variants' : List (String × List Ty)}
    (ran : Yields c s (resolveVariants origin variants) variants') :
    List.Forall₂ (fun variant variant' => variant'.1 = variant.1 ∧
      List.Forall₂ S.Resolves variant.2 variant'.2) variants variants' := by
  induction variants generalizing variants' with
  | nil =>
      cases ran
      exact .nil
  | cons variant variants ih =>
      rw [resolveVariants] at ran
      obtain ⟨tys, resolved, ran⟩ := ran.bind_quiet (quiet_resolveAll _ _) standard
      obtain ⟨rest, lowered, ran⟩ := ran.bind_quiet (quiet_resolveVariants _ _) standard
      cases ran
      exact .cons ⟨rfl, resolves_resolveAll standard stands origin _ resolved⟩ (ih lowered)

theorem elaborates_resolveBody {S : Surroundings} {Γ : Locals} (standard : c.engine = .standard)
    (stands : Stands S Γ s) {name : String} {origin : Origin} {body : Source.TypeBody} {ty : Ty}
    (ran : Yields c s (resolveBody name origin body) ty) : Elaborates.TypeBody S name body ty := by
  cases body with
  | record fields =>
      obtain ⟨fields', lowered, ran⟩ := Yields.bind_quiet ran (quiet_resolveFields _ _) standard
      cases ran
      exact .record (resolves_resolveFields standard stands lowered)
  | sum variants =>
      obtain ⟨variants', lowered, ran⟩ :=
        Yields.bind_quiet ran (quiet_resolveVariants _ _) standard
      cases ran
      exact .sum (resolves_resolveVariants standard stands lowered)
  | abstract =>
      cases ran
      exact .abstract
  | synonym target => exact .synonym (resolves_resolve standard stands origin target ran)

theorem stage_typeDecl (decl : Source.TypeDecl) : (Node.typeDecl decl).shape.stage = .typeDecl := by
  obtain ⟨name, typeParams, body, exported, origin⟩ := decl
  cases body <;> rfl

/-- A type is lowered as what it is declared as. -/
theorem body_of_shape (decl : Source.TypeDecl) :
    (if (Node.typeDecl decl).shape = .abstractDecl then .abstract else decl.body) = decl.body := by
  obtain ⟨name, typeParams, body, exported, origin⟩ := decl
  cases body <;> rfl

/-- Outside of everything, type parameters are all that surrounds a declaration beside the
tables. -/
theorem stands_withTypeParams (unscoped : s.env.scopes = ∅) (outside : s.typeParams = [])
    (retagged : s.Retagged t) (params : List TypeParam) :
    Stands (t.env.surroundings params) []
      { s with typeParams := params.reverse ++ s.typeParams } where
  locals name := by
    show s.env.scopes.lookup? name = _
    rw [unscoped]
    rfl
  types := retagged.types
  functions := retagged.table
  constructors := retagged.constructors
  typeParams := by
    show params.reverse ++ s.typeParams = params.reverse
    rw [outside, List.append_nil]

/-- A type that is lowered with success is declared as what its body is resolved to, and
nothing else happens. -/
theorem ok_of_lowerTypeDecl (standard : c.engine = .standard) {decl : Source.TypeDecl}
    {lowered : Typed.TypeDecl} (ran : lowerTypeDecl decl c s = (.ok lowered, t)) :
    ∃ typeParams ty, Yields c s (declaredParams decl.typeParams decl.origin) typeParams ∧
      Yields c s (withTypeParams typeParams (resolveBody decl.name decl.origin decl.body)) ty ∧
      lowered = ⟨decl.name, ty, typeParams, decl.exported, decl.origin⟩ ∧
      t = s.withDeclaration decl lowered.info := by
  replace ran := ok_of_dispatch standard (stage_typeDecl decl) ran
  unfold lowerTypeAs at ran
  rw [body_of_shape] at ran
  obtain ⟨typeParams, normalized, ran⟩ := (quiet_declaredParams _ _).ok_of_bind standard ran
  obtain ⟨ty, resolved, ran⟩ :=
    Quiet.ok_of_bind ((quiet_resolveBody _ _ _).withTypeParams _) standard ran
  refine ⟨typeParams, ty, normalized, resolved, ?_⟩
  clear normalized resolved
  obtain ⟨name, params, body, exported, origin⟩ := decl
  cases body <;> cases ran <;> exact ⟨rfl, rfl⟩

theorem elaborates_lowerTypeDecl (standard : c.engine = .standard) (unscoped : s.env.scopes = ∅)
    (outside : s.typeParams = []) {decl : Source.TypeDecl} {lowered : Typed.TypeDecl}
    (ran : lowerTypeDecl decl c s = (.ok lowered, t)) :
    Elaborates.TypeDecl s.env decl lowered := by
  obtain ⟨typeParams, ty, normalized, resolved, rfl, -⟩ := ok_of_lowerTypeDecl standard ran
  have stands := stands_withTypeParams unscoped outside rfl typeParams
  exact {
    name := rfl
    typeParams := normalize_of_declaredParams normalized
    body := elaborates_resolveBody standard stands resolved.of_withTypeParams
    exported := rfl }

/-! ### Functions -/

/-- The computation changes nothing but effect tags and announcements, and what it comes to
depends on neither. -/
structure Retags (x : Lower α) : Prop where
  congr : ∀ {c : Context} {s t : LowerState}, c.engine = .standard →
    s.Alike FunctionTable.Alike t → (x c s).1 = (x c t).1
  frame : ∀ {c : Context} (s : LowerState), c.engine = .standard → s.Retagged (x c s).2

theorem Quiet.retags {x : Lower α} (quiet : Quiet FunctionTable.Alike x) : Retags x where
  congr standard states := (quiet.congr (.refl standard) states).1
  frame s standard := by
    obtain ⟨announced, after⟩ := quiet.after s standard
    rw [after]
    rfl

namespace Retags

theorem bind {x : Lower α} {f : α → Lower β} (first : Retags x) (rest : ∀ a, Retags (f a)) :
    Retags (x >>= f) where
  congr {c s t} standard states := by
    have outcome := first.congr standard states
    have after := ((first.frame s standard).symm.alike.trans states).trans
      (first.frame t standard).alike
    rw [bind_apply, bind_apply]
    generalize x c s = run at outcome after ⊢
    generalize x c t = run' at outcome after ⊢
    obtain ⟨r, s'⟩ := run
    obtain ⟨r', t'⟩ := run'
    obtain rfl : r = r' := outcome
    cases r with
    | ok a => exact (rest a).congr standard after
    | error fault => rfl
  frame {c} s standard := by
    have after := first.frame s standard
    rw [bind_apply]
    generalize x c s = run at after ⊢
    rcases run with ⟨fault | a, s'⟩
    · exact after
    · exact after.trans ((rest a).frame s' standard)

theorem read_bind {f : Context → Lower β} (rest : ∀ c, Retags (f c)) : Retags (read >>= f) where
  congr {c} _ _ standard states := (rest c).congr standard states
  frame {c} s standard := (rest c).frame s standard

theorem dispatch {stage : Stage} {node : Node} {lower : Shape → Lower α}
    (staged : node.shape.stage = stage) (retags : Retags (lower node.shape))
    (take : Product → Option α) : Retags (Lower.dispatch stage node lower take) where
  congr {c s t} standard states := by
    have outcome := retags.congr standard states
    rw [dispatch_standard standard staged, dispatch_standard standard staged]
    unfold placed
    generalize lower node.shape c s = run at outcome ⊢
    generalize lower node.shape c t = run' at outcome ⊢
    obtain ⟨r, s'⟩ := run
    obtain ⟨r', t'⟩ := run'
    obtain rfl : r = r' := outcome
    cases r <;> rfl
  frame {c} s standard := by
    have after := retags.frame s standard
    rw [dispatch_standard standard staged]
    unfold placed
    generalize lower node.shape c s = run at after ⊢
    rcases run with ⟨fault | a, s'⟩ <;> exact after

/-- Replacing the tags of one function. -/
theorem replaceEffects (name : String) (tags : List Effect) :
    Retags (modifyEnv fun env =>
      { env with functions := (env.functions.replaceEffects name tags).2 }) where
  congr _ _ := rfl
  frame s _ := by
    show s.untagged = { s.untagged with
      env := { s.env with functions.table := (s.env.functions.replaceEffects name tags).2.table
                          functions.tags := ∅ } }
    rw [FunctionTable.table_replaceEffects]
    rfl

end Retags

/-- The parameters of a function with the types of its signature. -/
def typedParams (decl : Source.Function) (sig : Signature) : List Typed.Param :=
  (decl.params.zip sig.params).map fun param => { name := param.1.name, ty := param.2 }

/-- Lowers the body of a function, if it has one. -/
def lowerBody? (decl : Source.Function) (sig : Signature) : Lower (Option Typed.Expr) :=
  match decl.body with
  | none => pure none
  | some body => do
    let body ← lowerBody decl sig (typedParams decl sig) body
    return some body

/-- What a function is lowered to, once its effects are known. -/
def typedFunction (decl : Source.Function) (sig : Signature) (body : Option Typed.Expr)
    (effects : List Effect) : Typed.Function where
  name := decl.name
  typeParams := sig.typeParams
  params := typedParams decl sig
  result := sig.result
  body := body
  exported := decl.exported
  external := decl.isExternal
  effects := effects
  origin := decl.origin

/-- Works out the effects of a function, if that is asked for, and notes them. -/
def tagEffects (decl : Source.Function) (sig : Signature) (body : Option Typed.Expr) :
    Lower (List Effect) := do
  if (← read).config.analyzeEffects then
    let effects := Typed.effectsOf body sig.result
    modifyEnv fun env =>
      { env with functions := (env.functions.replaceEffects decl.name effects).2 }
    return effects
  else return []

/-- The steps of lowering a function. -/
theorem lowerFunctionForm_eq (decl : Source.Function) : lowerFunctionForm decl = do
    let sig ← signatureOf decl
    let body ← lowerBody? decl sig
    let effects ← tagEffects decl sig body
    return typedFunction decl sig body effects := by
  unfold lowerFunctionForm
  refine bind_congr fun sig => ?_
  have last (body : Option Typed.Expr) : (do
      let effects ← tagEffects decl sig body
      return typedFunction decl sig body effects) = (do
      if (← read).config.analyzeEffects then
        let effects := Typed.effectsOf body sig.result
        modifyEnv fun env =>
          { env with functions := (env.functions.replaceEffects decl.name effects).2 }
        return typedFunction decl sig body effects
      else return typedFunction decl sig body []) := by
    unfold tagEffects
    rw [bind_assoc]
    refine bind_congr fun context => ?_
    split <;> simp
  unfold lowerBody?
  cases decl.body with
  | none =>
      simp only [pure_bind, last]
      rfl
  | some body =>
      simp only [pure_bind, bind_assoc, last, map_eq_pure_bind]
      rfl

theorem quiet_lowerBody? (decl : Source.Function) (sig : Signature) :
    Quiet FunctionTable.Alike (lowerBody? decl sig) := by
  unfold lowerBody?
  split
  · exact .pure rfl
  · exact (quiet_lowerBody _ _ _ _).bind fun _ => .pure rfl

theorem retags_tagEffects (decl : Source.Function) (sig : Signature) (body : Option Typed.Expr) :
    Retags (tagEffects decl sig body) := by
  refine .read_bind fun context => ?_
  split
  · exact (Retags.replaceEffects _ _).bind fun _ => Quiet.retags (.pure rfl)
  · exact Quiet.retags (.pure rfl)

theorem retags_lowerFunction (decl : Source.Function) : Retags (lowerFunction decl) := by
  refine .dispatch rfl ?_ _
  rw [lowerFunctionForm_eq]
  refine (quiet_signatureOf decl).retags.bind fun sig => ?_
  refine (quiet_lowerBody? decl sig).retags.bind fun body => ?_
  exact (retags_tagEffects decl sig body).bind fun effects => Quiet.retags (.pure rfl)

theorem resolves_typedParams {S : Surroundings} {decl : Source.Function} {sig : Signature}
    (resolved : List.Forall₂ S.Resolves (decl.params.map Source.Param.ty) sig.params) :
    List.Forall₂ (fun param param' => param'.name = param.name ∧ S.Resolves param.ty param'.ty)
      decl.params (typedParams decl sig) := by
  unfold typedParams
  generalize decl.params = params at resolved ⊢
  generalize sig.params = tys at resolved ⊢
  induction params generalizing tys with
  | nil => exact .nil
  | cons param params ih =>
      cases resolved with
      | cons resolves rest => exact .cons ⟨rfl, resolves⟩ (ih _ rest)

/-- The signature of a function, read off the source. -/
theorem resolves_signatureOf (standard : c.engine = .standard) (unscoped : s.env.scopes = ∅)
    (outside : s.typeParams = []) (retagged : s.Retagged t) {decl : Source.Function}
    {sig : Signature} (ran : Yields c s (signatureOf decl) sig) :
    TypeParam.normalize decl.typeParams = .ok sig.typeParams ∧
      List.Forall₂ (t.env.surroundings sig.typeParams).Resolves
        (decl.params.map Source.Param.ty) sig.params ∧
      (∀ written, decl.result = some written →
        (t.env.surroundings sig.typeParams).Resolves written sig.result) ∧
      (decl.result = none → sig.result = .void) := by
  unfold signatureOf at ran
  obtain ⟨typeParams, normalized, ran⟩ := ran.bind_quiet (quiet_declaredParams _ _) standard
  have stands := stands_withTypeParams unscoped outside retagged typeParams
  replace ran := ran.of_withTypeParams
  obtain ⟨params, lowered, ran⟩ := ran.bind_quiet (quiet_resolveAll _ _) standard
  obtain ⟨result, resolved, ran⟩ := ran.bind_quiet (quiet_resolve? _ _) standard
  cases ran
  replace resolved := resolves_resolve? standard stands resolved
  refine ⟨normalize_of_declaredParams normalized,
    resolves_resolveAll standard stands _ _ lowered, resolves_getD resolved .void, ?_⟩
  intro absent
  rw [absent] at resolved
  cases resolved
  rfl

theorem elaborates_lowerBody? (standard : c.engine = .standard) (unscoped : s.env.scopes = ∅)
    (outside : s.typeParams = []) (retagged : s.Retagged t) {decl : Source.Function}
    {sig : Signature} {body : Option Typed.Expr} (ran : Yields c s (lowerBody? decl sig) body) :
    Option.Rel (Elaborates.Expr (t.env.surroundings sig.typeParams)
      (paramBinders (typedParams decl sig))) decl.body body := by
  unfold lowerBody? at ran
  split at ran
  · next absent =>
    cases ran
    rw [absent]
    exact .none
  · next body present =>
    obtain ⟨body', lowered, ran⟩ := ran.bind_quiet (quiet_lowerBody _ _ _ _) standard
    cases ran
    rw [present]
    unfold lowerBody at lowered
    have stands := stands_withTypeParams unscoped outside retagged sig.typeParams
    obtain ⟨_, _, -, rfl, inside⟩ :=
      lowered.of_withTypeParams.of_inScope.bind (binds_bindParams _) standard
    obtain ⟨lowered, elaborated, inside⟩ :=
      inside.of_withResult.bind_quiet (quiet_lowerExpr _ _) standard
    replace elaborated := elaborates_lowerExpr standard _ _
      ((stands.entered.bound (paramBinders (typedParams decl sig))).returning _) elaborated
    rw [List.append_nil] at elaborated
    split at inside
    · cases inside
      exact .some elaborated
    · obtain ⟨_, -, inside⟩ :=
        inside.bind_quiet (.check (Check.candid_compatible _ _ _ _)) standard
      cases inside
      exact .some elaborated

/-- The effects are those of the body and the result if they are worked out at all. The rest
of the function is settled before. -/
theorem typed_of_tagEffects {decl : Source.Function} {sig : Signature} {body : Option Typed.Expr}
    {lowered : Typed.Function} (ran : Yields c s (do
      let effects ← tagEffects decl sig body
      return typedFunction decl sig body effects) lowered) :
    lowered = typedFunction decl sig body
      (if c.config.analyzeEffects then Typed.effectsOf body sig.result else []) := by
  unfold tagEffects at ran
  rw [bind_assoc] at ran
  replace ran := ran.read_bind
  split at ran
  · next analyzed =>
    cases ran
    rw [if_pos analyzed]
  · next unanalyzed =>
    cases ran
    rw [if_neg unanalyzed]

theorem elaborates_lowerFunction (standard : c.engine = .standard) (unscoped : s.env.scopes = ∅)
    (outside : s.typeParams = []) (retagged : s.Retagged t) {decl : Source.Function}
    {lowered : Typed.Function} (ran : Yields c s (lowerFunction decl) lowered) :
    Elaborates.Function t.env decl lowered := by
  replace ran := ran.of_dispatch rfl standard
  rw [lowerFunctionForm_eq] at ran
  obtain ⟨sig, signature, ran⟩ := ran.bind_quiet (quiet_signatureOf decl) standard
  obtain ⟨body, bodies, ran⟩ := ran.bind_quiet (quiet_lowerBody? decl sig) standard
  obtain rfl := typed_of_tagEffects ran
  obtain ⟨normalized, params, result, noResult⟩ :=
    resolves_signatureOf standard unscoped outside retagged signature
  exact {
    name := rfl
    typeParams := normalized
    params := resolves_typedParams params
    result := result
    noResult := noResult
    body := elaborates_lowerBody? standard unscoped outside retagged bodies
    exported := rfl
    external := rfl }

end Lower

end ModuleTyping
