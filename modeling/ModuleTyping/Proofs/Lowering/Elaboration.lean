import Mathlib.Data.List.Forall2
import ModuleTyping.Proofs.Lowering.Neutrality

/-!
# What a lowered body says of its source

`Elaborates` relates source expressions, statements and patterns to typed ones part by part.
The two trees have the same parts in the same order; they differ in what names, members and
callees have been resolved to, in the names that record literals were given, and in types,
which are resolved where the source writes them. Which names are local is told by a list of
those around (`Locals`), the innermost and most recent first, and no state of a pass appears
in the relation.

Whatever is lowered is elaborated (`elaborates_lowerExpr`): the names that a pass keeps in
its scopes are those of the list (`Stands`).
-/

namespace ModuleTyping

/-- What names and written types in a body may refer to, apart from local names. -/
structure Surroundings where
  types : TypeTable
  functions : FunctionTable
  constructors : ConstructorTable
  typeParams : List TypeParam

namespace Surroundings

/-- The type parameter of that name. -/
def typeParam? (S : Surroundings) (name : String) : Option TypeParam :=
  S.typeParams.find? (·.name == name)

/-- What a written type stands for: a type parameter hides a declared type, and the parts of
a type stand for the parts of what it stands for. -/
inductive Resolves (S : Surroundings) : WrittenType → Ty → Prop
  | param {name : String} {param : TypeParam} : S.typeParam? name = some param →
      Resolves S (.named name) param.toVar
  | auto : S.typeParam? "auto" = none → Resolves S (.named "auto") .auto
  | unitName : S.typeParam? "unit" = none → Resolves S (.named "unit") .unit
  | declared {name : String} {ty : Ty} : S.typeParam? name = none → name ≠ "auto" →
      name ≠ "unit" → S.types.lookup? name = some ty → Resolves S (.named name) ty
  | applied {name : String} {info : TypeInfo} {args : List WrittenType} {args' : List Ty} :
      S.types.info? name = some info → List.Forall₂ (Resolves S) args args' →
      Resolves S (.generic name args) (.generic info.ty args')
  | mapName {key value : WrittenType} {key' value' : Ty} : S.types.info? "Map" = none →
      Resolves S key key' → Resolves S value value' →
      Resolves S (.generic "Map" [key, value]) (.map key' value')
  | array {element : WrittenType} {element' : Ty} : Resolves S element element' →
      Resolves S (.array element) (.array element')
  | function {params : List WrittenType} {params' : List Ty} {result : WrittenType}
      {result' : Ty} : List.Forall₂ (Resolves S) params params' → Resolves S result result' →
      Resolves S (.function params result) (.function params' result')
  | ref {referent : WrittenType} {referent' : Ty} : Resolves S referent referent' →
      Resolves S (.ref referent) (.ref referent')
  | mutRef {referent : WrittenType} {referent' : Ty} : Resolves S referent referent' →
      Resolves S (.mutRef referent) (.mutRef referent')
  | map {key value : WrittenType} {key' value' : Ty} : Resolves S key key' →
      Resolves S value value' → Resolves S (.map key value) (.map key' value')
  | unit : Resolves S .unit .unit

/-- The function that a member of an expression refers to when the expression is the name
of a module, which is neither a local name nor a function. -/
def moduleMember? (S : Surroundings) (Γ : Locals) (object : Source.Expr) (member : String) :
    Option (Entry Signature) :=
  match object.form with
  | .var name =>
    if (Γ.lookup name).isSome || S.functions.contains name then none
    else S.functions.member? name member
  | _ => none

end Surroundings

/-- The callee is called as a value: it is neither a member nor a name that is not local. -/
def Source.Expr.IsValue (Γ : Locals) (callee : Source.Expr) : Prop :=
  match callee.form with
  | .member _ _ => False
  | .var name => (Γ.lookup name).isSome = true
  | _ => True

namespace Elaborates

/-- A name on its own in a pattern is a constructor if one without fields has that name. -/
inductive Pattern (S : Surroundings) : Source.Pattern → Typed.Pattern → Prop
  | wildcard : Pattern S .wildcard .wildcard
  | bind {name : String} {ty : Ty} : S.constructors.isNullary name = false →
      Pattern S (.bind name) (.bind name ty)
  | nullary {name : String} {ty : Ty} : S.constructors.isNullary name = true →
      Pattern S (.bind name) (.constructor name [] ty)
  | literal {value : Literal} : Pattern S (.literal value) (.literal value)
  | constructor {name : String} {ty : Ty} {fields : List Source.Pattern}
      {fields' : List Typed.Pattern} : List.Forall₂ (Pattern S) fields fields' →
      Pattern S (.constructor name fields) (.constructor name fields' ty)
  | or {alternatives : List Source.Pattern} {alternatives' : List Typed.Pattern} :
      List.Forall₂ (Pattern S) alternatives alternatives' →
      Pattern S (.or alternatives) (.or alternatives')

/-- What a call of a name that is not local calls. -/
inductive Callee (S : Surroundings) (name : String) : Typed.Callee → Prop
  | builtin : isBuiltin name = true → Callee S name (.builtin name)
  | function {entry : Entry Signature} : isBuiltin name = false →
      S.functions.entry? name = some entry → Callee S name (.function entry.name)

/-- What a name becomes, and its type. The first of these that applies is taken. -/
inductive Name (S : Surroundings) (Γ : Locals) (name : String) : Typed.ExprForm → Ty → Prop
  | bound {ty : Ty} : Γ.lookup name = some ty → Name S Γ name (.var name) ty
  | constructor {callee : Typed.Callee} {ty : Ty} : Γ.lookup name = none →
      S.constructors.isNullary name = true → Callee S name callee →
      Name S Γ name (.call callee []) ty
  | function {entry : Entry Signature} : Γ.lookup name = none →
      S.constructors.isNullary name = false → S.functions.entry? name = some entry →
      Name S Γ name (.functionRef entry.name) entry.value.toTy
  | truth {value : Bool} : Γ.lookup name = none → S.constructors.isNullary name = false →
      S.functions.entry? name = none → boolOfWord? name = some value →
      Name S Γ name (.literal (.bool value)) .bool
  | builtin {ty : Ty} : Γ.lookup name = none → S.constructors.isNullary name = false →
      S.functions.entry? name = none → boolOfWord? name = none →
      builtinResult? name = some ty → Name S Γ name (.var name) ty

/-- A parameter keeps its name, and its written type is resolved. -/
structure LambdaParam (S : Surroundings) (param : Source.LambdaParam) (param' : Typed.Param) :
    Prop where
  name : param'.name = param.name
  ty : ∀ written, param.ty = some written → S.Resolves written param'.ty

mutual

/-- The typed expression says what the source says where these names are local. -/
inductive Expr (S : Surroundings) : Locals → Source.Expr → Typed.Expr → Prop
  | mk {Γ : Locals} {form : Source.ExprForm} {form' : Typed.ExprForm} {ty : Ty}
      {origin origin' : Origin} : Form S Γ form form' ty →
      Expr S Γ ⟨form, origin⟩ ⟨form', ty, origin'⟩

/-- The forms of expressions, with the type that is recorded. -/
inductive Form (S : Surroundings) : Locals → Source.ExprForm → Typed.ExprForm → Ty → Prop
  | literal {Γ : Locals} {value : Literal} {ty : Ty} :
      Form S Γ (.literal value) (.literal value) ty
  | name {Γ : Locals} {name : String} {form : Typed.ExprForm} {ty : Ty} :
      Name S Γ name form ty → Form S Γ (.var name) form ty
  | binary {Γ : Locals} {op : BinaryOp} {lhs rhs : Source.Expr} {lhs' rhs' : Typed.Expr}
      {ty : Ty} : Expr S Γ lhs lhs' → Expr S Γ rhs rhs' →
      Form S Γ (.binary op lhs rhs) (.binary op lhs' rhs') ty
  | unary {Γ : Locals} {op : UnaryOp} {operand : Source.Expr} {operand' : Typed.Expr}
      {ty : Ty} : Expr S Γ operand operand' →
      Form S Γ (.unary op operand) (.unary op operand') ty
  | moduleFunction {Γ : Locals} {object : Source.Expr} {member : String}
      {entry : Entry Signature} : S.moduleMember? Γ object member = some entry →
      Form S Γ (.member object member) (.functionRef entry.name) entry.value.toTy
  | member {Γ : Locals} {object : Source.Expr} {object' : Typed.Expr} {member : String}
      {ty : Ty} : S.moduleMember? Γ object member = none → Expr S Γ object object' →
      Form S Γ (.member object member) (.member object' member) ty
  | callName {Γ : Locals} {name : String} {origin : Origin} {callee : Typed.Callee}
      {args : List Source.Expr} {args' : List Typed.Expr} {ty : Ty} :
      Γ.lookup name = none → Callee S name callee → Exprs S Γ args args' →
      Form S Γ (.call ⟨.var name, origin⟩ args) (.call callee args') ty
  | callModuleFunction {Γ : Locals} {object : Source.Expr} {member : String} {origin : Origin}
      {entry : Entry Signature} {args : List Source.Expr} {args' : List Typed.Expr} {ty : Ty} :
      S.moduleMember? Γ object member = some entry → Exprs S Γ args args' →
      Form S Γ (.call ⟨.member object member, origin⟩ args)
        (.call (.function entry.name) args') ty
  | callField {Γ : Locals} {object : Source.Expr} {object' : Typed.Expr} {member : String}
      {origin origin' : Origin} {params : List Ty} {result : Ty} {args : List Source.Expr}
      {args' : List Typed.Expr} {ty : Ty} : S.moduleMember? Γ object member = none →
      Expr S Γ object object' → Exprs S Γ args args' →
      Form S Γ (.call ⟨.member object member, origin⟩ args)
        (.call (.value ⟨.member object' member, .function params result, origin'⟩) args') ty
  | callMethod {Γ : Locals} {object : Source.Expr} {object' : Typed.Expr} {member : String}
      {origin : Origin} {args : List Source.Expr} {args' : List Typed.Expr} {ty : Ty} :
      S.moduleMember? Γ object member = none → Expr S Γ object object' → Exprs S Γ args args' →
      Form S Γ (.call ⟨.member object member, origin⟩ args)
        (.call (.method object' member) args') ty
  | callValue {Γ : Locals} {callee : Source.Expr} {callee' : Typed.Expr}
      {args : List Source.Expr} {args' : List Typed.Expr} {ty : Ty} : callee.IsValue Γ →
      Expr S Γ callee callee' → Exprs S Γ args args' →
      Form S Γ (.call callee args) (.call (.value callee') args') ty
  | index {Γ : Locals} {object position : Source.Expr} {object' position' : Typed.Expr}
      {ty : Ty} : Expr S Γ object object' → Expr S Γ position position' →
      Form S Γ (.index object position) (.index object' position') ty
  | record {Γ : Locals} {name : Option String} {fields : List (String × Source.Expr)}
      {fields' : List (String × Typed.Expr)} {ty : Ty} : Fields S Γ fields fields' →
      Form S Γ (.record name fields) (.record ty.name fields') ty
  | ifThen {Γ : Locals} {condition thenBranch : Source.Expr}
      {condition' thenBranch' : Typed.Expr} {ty : Ty} : Expr S Γ condition condition' →
      Expr S Γ thenBranch thenBranch' →
      Form S Γ (.ifElse condition thenBranch none) (.ifElse condition' thenBranch' none) ty
  | ifElse {Γ : Locals} {condition thenBranch elseBranch : Source.Expr}
      {condition' thenBranch' elseBranch' : Typed.Expr} {ty : Ty} :
      Expr S Γ condition condition' → Expr S Γ thenBranch thenBranch' →
      Expr S Γ elseBranch elseBranch' →
      Form S Γ (.ifElse condition thenBranch (some elseBranch))
        (.ifElse condition' thenBranch' (some elseBranch')) ty
  | matching {Γ : Locals} {scrutinee : Source.Expr} {scrutinee' : Typed.Expr}
      {arms : List Source.Arm} {arms' : List Typed.Arm} {ty : Ty} :
      Expr S Γ scrutinee scrutinee' → Arms S Γ arms arms' →
      Form S Γ (.matching scrutinee arms) (.matching scrutinee' arms') ty
  | lambda {Γ : Locals} {params : List Source.LambdaParam} {params' : List Typed.Param}
      {result : Option WrittenType} {returned : Ty} {body : Source.Expr} {body' : Typed.Expr} :
      List.Forall₂ (LambdaParam S) params params' →
      (∀ written, result = some written → S.Resolves written returned) →
      Expr S (Typed.paramBinders params' ++ Γ) body body' →
      Form S Γ (.lambda params result body) (.lambda params' body')
        (.function (params'.map Typed.Param.ty) returned)
  | block {Γ : Locals} {stmts : List Source.Stmt} {stmts' : List Typed.Stmt} {ty : Ty} :
      Stmts S Γ stmts stmts' → Form S Γ (.block stmts none) (.block stmts' none) ty
  | blockValue {Γ : Locals} {stmts : List Source.Stmt} {stmts' : List Typed.Stmt}
      {result : Source.Expr} {result' : Typed.Expr} {ty : Ty} : Stmts S Γ stmts stmts' →
      Expr S (Typed.stmtBinders stmts' ++ Γ) result result' →
      Form S Γ (.block stmts (some result)) (.block stmts' (some result')) ty
  | array {Γ : Locals} {elements : List Source.Expr} {elements' : List Typed.Expr} {ty : Ty} :
      Exprs S Γ elements elements' → Form S Γ (.array elements) (.array elements') ty

/-- Expressions in order. -/
inductive Exprs (S : Surroundings) : Locals → List Source.Expr → List Typed.Expr → Prop
  | nil {Γ : Locals} : Exprs S Γ [] []
  | cons {Γ : Locals} {e : Source.Expr} {e' : Typed.Expr} {rest : List Source.Expr}
      {rest' : List Typed.Expr} : Expr S Γ e e' → Exprs S Γ rest rest' →
      Exprs S Γ (e :: rest) (e' :: rest')

/-- Fields in order, with their names. -/
inductive Fields (S : Surroundings) :
    Locals → List (String × Source.Expr) → List (String × Typed.Expr) → Prop
  | nil {Γ : Locals} : Fields S Γ [] []
  | cons {Γ : Locals} {name : String} {e : Source.Expr} {e' : Typed.Expr}
      {rest : List (String × Source.Expr)} {rest' : List (String × Typed.Expr)} :
      Expr S Γ e e' → Fields S Γ rest rest' →
      Fields S Γ ((name, e) :: rest) ((name, e') :: rest')

/-- Arms in order. What the pattern binds is local in the body. -/
inductive Arms (S : Surroundings) : Locals → List Source.Arm → List Typed.Arm → Prop
  | nil {Γ : Locals} : Arms S Γ [] []
  | cons {Γ : Locals} {pattern : Source.Pattern} {pattern' : Typed.Pattern}
      {body : Source.Expr} {body' : Typed.Expr} {origin : Origin} {rest : List Source.Arm}
      {rest' : List Typed.Arm} : Pattern S pattern pattern' →
      Expr S (pattern'.binders ++ Γ) body body' → Arms S Γ rest rest' →
      Arms S Γ (⟨pattern, body, origin⟩ :: rest) (⟨pattern', body'⟩ :: rest')

/-- The typed statement says what the source says where these names are local. -/
inductive Stmt (S : Surroundings) : Locals → Source.Stmt → Typed.Stmt → Prop
  | mk {Γ : Locals} {form : Source.StmtForm} {form' : Typed.StmtForm} {origin origin' : Origin} :
      StmtForm S Γ form form' → Stmt S Γ ⟨form, origin⟩ ⟨form', origin'⟩

/-- The forms of statements. -/
inductive StmtForm (S : Surroundings) : Locals → Source.StmtForm → Typed.StmtForm → Prop
  | bind {Γ : Locals} {name : String} {mutable : Bool} {written : Option WrittenType} {ty : Ty}
      {value : Source.Expr} {value' : Typed.Expr} : Expr S Γ value value' →
      (∀ declared, written = some declared → S.Resolves declared ty) →
      (written = none → ty = value'.ty) →
      StmtForm S Γ (.bind name mutable written value) (.bind name mutable ty value')
  | assign {Γ : Locals} {target : String} {value : Source.Expr} {value' : Typed.Expr} :
      (Γ.lookup target).isSome = true → Expr S Γ value value' →
      StmtForm S Γ (.assign target value) (.assign target value')
  | expr {Γ : Locals} {value : Source.Expr} {value' : Typed.Expr} : Expr S Γ value value' →
      StmtForm S Γ (.expr value) (.expr value')
  | return {Γ : Locals} : StmtForm S Γ (.return none) (.return none)
  | returnValue {Γ : Locals} {value : Source.Expr} {value' : Typed.Expr} :
      Expr S Γ value value' → StmtForm S Γ (.return (some value)) (.return (some value'))
  | ifElse {Γ : Locals} {condition : Source.Expr} {condition' : Typed.Expr}
      {thenBody elseBody : List Source.Stmt} {thenBody' elseBody' : List Typed.Stmt} :
      Expr S Γ condition condition' → Stmts S Γ thenBody thenBody' →
      Stmts S Γ elseBody elseBody' →
      StmtForm S Γ (.ifElse condition thenBody elseBody) (.ifElse condition' thenBody' elseBody')
  | whileLoop {Γ : Locals} {condition : Source.Expr} {condition' : Typed.Expr}
      {body : List Source.Stmt} {body' : List Typed.Stmt} : Expr S Γ condition condition' →
      Stmts S Γ body body' →
      StmtForm S Γ (.whileLoop condition body) (.whileLoop condition' body')
  | forEach {Γ : Locals} {name : String} {ty : Ty} {iterable : Source.Expr}
      {iterable' : Typed.Expr} {body : List Source.Stmt} {body' : List Typed.Stmt} :
      Expr S Γ iterable iterable' → Stmts S ((name, ty) :: Γ) body body' →
      StmtForm S Γ (.forEach name iterable body) (.forEach name ty iterable' body')
  | leave {Γ : Locals} : StmtForm S Γ .leave .leave
  | next {Γ : Locals} : StmtForm S Γ .next .next

/-- Statements in order. What one binds is local in those after it. -/
inductive Stmts (S : Surroundings) : Locals → List Source.Stmt → List Typed.Stmt → Prop
  | nil {Γ : Locals} : Stmts S Γ [] []
  | cons {Γ : Locals} {stmt : Source.Stmt} {stmt' : Typed.Stmt} {rest : List Source.Stmt}
      {rest' : List Typed.Stmt} : Stmt S Γ stmt stmt' →
      Stmts S (stmt'.binders ++ Γ) rest rest' → Stmts S Γ (stmt :: rest) (stmt' :: rest')

end

end Elaborates

/-! ### Where a pass stands -/

/-- The pass is where these names are local, and sees these surroundings. -/
structure Stands (S : Surroundings) (Γ : Locals) (s : LowerState) : Prop where
  locals : ∀ name, s.env.scopes.lookup? name = Γ.lookup name
  types : s.env.types = S.types
  functions : s.env.functions.table = S.functions.table
  constructors : s.env.constructors = S.constructors
  typeParams : s.typeParams = S.typeParams

namespace Stands

variable {S : Surroundings} {Γ : Locals} {s : LowerState}

theorem bound (stands : Stands S Γ s) (names : Locals) :
    Stands S (names ++ Γ) (s.grown names []) where
  locals name := by
    rw [List.lookup_append, ← stands.locals]
    exact s.env.scopes.lookup?_bindAll names name
  types := stands.types
  functions := stands.functions
  constructors := stands.constructors
  typeParams := stands.typeParams

theorem entered (stands : Stands S Γ s) :
    Stands S Γ { s with env := { s.env with scopes := s.env.scopes.push } } where
  locals := stands.locals
  types := stands.types
  functions := stands.functions
  constructors := stands.constructors
  typeParams := stands.typeParams

theorem returning (stands : Stands S Γ s) (result : Ty) :
    Stands S Γ { s with results := result :: s.results } where
  locals := stands.locals
  types := stands.types
  functions := stands.functions
  constructors := stands.constructors
  typeParams := stands.typeParams

theorem entry? (stands : Stands S Γ s) (name : String) :
    s.env.functions.entry? name = S.functions.entry? name := by
  rw [FunctionTable.entry?, stands.functions, FunctionTable.entry?]

theorem contains (stands : Stands S Γ s) (name : String) :
    s.env.functions.contains name = S.functions.contains name := by
  rw [FunctionTable.contains, stands.functions, FunctionTable.contains]

theorem member? (stands : Stands S Γ s) (container member : String) :
    s.env.functions.member? container member = S.functions.member? container member := by
  simp only [FunctionTable.member?, stands.functions]

theorem moduleMember? (stands : Stands S Γ s) {object : Source.Expr} {member : String}
    {found : Option (String × Entry Signature)} {c : Context}
    (ran : Lower.Yields c s (Lower.moduleMember? object member) found) :
    found.map Prod.snd = S.moduleMember? Γ object member := by
  obtain ⟨form, origin⟩ := object
  cases form with
  | var name =>
      replace ran := ran.env_bind
      rw [Scopes.contains, stands.locals, stands.contains, stands.member?] at ran
      unfold Surroundings.moduleMember?
      dsimp only
      split at ran
      · next taken =>
        cases ran
        rw [if_pos taken]
        rfl
      · next free =>
        cases ran
        rw [if_neg free]
        cases S.functions.member? name member <;> rfl
  | _ =>
      cases ran
      rfl

end Stands

namespace Lower

variable {S : Surroundings} {Γ : Locals} {c : Context} {s : LowerState}

/-! ### Written types -/

theorem resolves_resolveName (stands : Stands S Γ s) {name : String} {origin : Origin} {ty : Ty}
    (unbound : S.typeParam? name = none) (ran : Yields c s (resolveName name origin) ty) :
    S.Resolves (.named name) ty := by
  unfold resolveName at ran
  split at ran
  · cases ran
    exact .auto unbound
  · cases ran
    exact .unitName unbound
  · next notAuto notUnit =>
    replace ran := ran.env_bind
    rw [stands.types] at ran
    split at ran
    · next found =>
      cases ran
      exact .declared unbound notAuto notUnit found
    · cases ran

theorem resolves_applyType (standard : c.engine = .standard) (stands : Stands S Γ s)
    {name : String} {args : List WrittenType} {args' : List Ty} {origin : Origin} {ty : Ty}
    (resolved : List.Forall₂ S.Resolves args args')
    (ran : Yields c s (applyType name args' origin) ty) : S.Resolves (.generic name args) ty := by
  unfold applyType at ran
  replace ran := ran.env_bind
  rw [stands.types] at ran
  split at ran
  · next undeclared =>
    split at ran
    · cases ran
      cases resolved with
      | cons resolvedKey rest =>
          cases rest with
          | cons resolvedValue rest =>
              cases rest
              exact .mapName undeclared resolvedKey resolvedValue
    · cases ran
  · next declared =>
    split at ran
    · cases ran
    · obtain ⟨_, -, ran⟩ :=
        ran.bind_quiet (.ofExcept (fun _ => isTypeError_of_validate) _) standard
      cases ran
      exact .applied declared resolved

mutual

theorem resolves_resolve (standard : c.engine = .standard) (stands : Stands S Γ s)
    (origin : Origin) : ∀ written {ty}, Yields c s (resolve origin written) ty →
      S.Resolves written ty
  | .named name, ty, ran => by
      rw [resolve] at ran
      replace ran := ran.get_bind
      rw [stands.typeParams] at ran
      split at ran
      · next found =>
        cases ran
        exact .param found
      · next unbound => exact resolves_resolveName stands unbound ran
  | .generic name args, ty, ran => by
      rw [resolve] at ran
      obtain ⟨args', resolved, ran⟩ := ran.bind_quiet (quiet_resolveAll origin args) standard
      exact resolves_applyType standard stands
        (resolves_resolveAll standard stands origin args resolved) ran
  | .array element, ty, ran => by
      rw [resolve] at ran
      obtain ⟨element', resolved, ran⟩ := ran.bind_quiet (quiet_resolve origin element) standard
      cases ran
      exact .array (resolves_resolve standard stands origin element resolved)
  | .function params result, ty, ran => by
      rw [resolve] at ran
      obtain ⟨params', resolved, ran⟩ := ran.bind_quiet (quiet_resolveAll origin params) standard
      obtain ⟨result', resolved', ran⟩ := ran.bind_quiet (quiet_resolve origin result) standard
      cases ran
      exact .function (resolves_resolveAll standard stands origin params resolved)
        (resolves_resolve standard stands origin result resolved')
  | .ref referent, ty, ran => by
      rw [resolve] at ran
      obtain ⟨referent', resolved, ran⟩ := ran.bind_quiet (quiet_resolve origin referent) standard
      cases ran
      exact .ref (resolves_resolve standard stands origin referent resolved)
  | .mutRef referent, ty, ran => by
      rw [resolve] at ran
      obtain ⟨referent', resolved, ran⟩ := ran.bind_quiet (quiet_resolve origin referent) standard
      cases ran
      exact .mutRef (resolves_resolve standard stands origin referent resolved)
  | .map key value, ty, ran => by
      rw [resolve] at ran
      obtain ⟨key', resolved, ran⟩ := ran.bind_quiet (quiet_resolve origin key) standard
      obtain ⟨value', resolved', ran⟩ := ran.bind_quiet (quiet_resolve origin value) standard
      cases ran
      exact .map (resolves_resolve standard stands origin key resolved)
        (resolves_resolve standard stands origin value resolved')
  | .unit, ty, ran => by
      rw [resolve] at ran
      cases ran
      exact .unit

theorem resolves_resolveAll (standard : c.engine = .standard) (stands : Stands S Γ s)
    (origin : Origin) : ∀ written {tys}, Yields c s (resolveAll origin written) tys →
      List.Forall₂ S.Resolves written tys
  | [], tys, ran => by
      rw [resolveAll] at ran
      cases ran
      exact .nil
  | ty :: rest, tys, ran => by
      rw [resolveAll] at ran
      obtain ⟨ty', resolved, ran⟩ := ran.bind_quiet (quiet_resolve origin ty) standard
      obtain ⟨rest', resolved', ran⟩ := ran.bind_quiet (quiet_resolveAll origin rest) standard
      cases ran
      exact .cons (resolves_resolve standard stands origin ty resolved)
        (resolves_resolveAll standard stands origin rest resolved')

end

theorem resolves_resolve? (standard : c.engine = .standard) (stands : Stands S Γ s)
    {origin : Origin} {written : Option WrittenType} {declared : Option Ty}
    (ran : Yields c s (resolve? origin written) declared) :
    Option.Rel S.Resolves written declared := by
  cases written with
  | none =>
      cases ran
      exact .none
  | some written =>
      obtain ⟨ty, resolved, ran⟩ := Yields.bind_quiet ran (quiet_resolve origin written) standard
      cases ran
      exact .some (resolves_resolve standard stands origin written resolved)

/-- What a written type was resolved to stands, whatever is taken where none is written. -/
theorem resolves_getD {written : Option WrittenType} {declared : Option Ty}
    (resolved : Option.Rel S.Resolves written declared) (otherwise : Ty) :
    ∀ ty, written = some ty → S.Resolves ty (declared.getD otherwise) := by
  rintro ty rfl
  cases resolved with
  | some resolves => exact resolves

end Lower

end ModuleTyping
