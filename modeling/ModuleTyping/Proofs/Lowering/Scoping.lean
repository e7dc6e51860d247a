import ModuleTyping.Proofs.Lowering.Passes

/-!
# Names in lowered bodies

`Scoped` says of a typed body that every name in it is accounted for by lexical scope: a
variable has the type that the innermost and most recent binder of its name records, or is
unbound and built in; what is assigned to is bound; and functions are named as the table of
functions registers them. Binders are parameters, the variables of loops, the bindings of a
block for what comes after them, and patterns, of which all alternatives count.

A typed expression that elaborates a source expression is scoped where the same names are
local, so the bodies of every accepted module are.
-/

namespace ModuleTyping

namespace FunctionTable

/-- The name is one under which a function is registered. -/
def IsCanonical (functions : FunctionTable) (name : String) : Prop :=
  functions.table.entries.contains name = true

variable {functions : FunctionTable} {entry : Entry Signature}

theorem isCanonical_of_get? (consistent : functions.table.Consistent) {key : String}
    (held : functions.table.entries.get? key = some entry) : functions.IsCanonical entry.name := by
  rw [IsCanonical, Dict.contains, consistent.named held, held]
  rfl

theorem isCanonical_of_entry? (consistent : functions.table.Consistent) {name : String}
    (found : functions.entry? name = some entry) : functions.IsCanonical entry.name := by
  obtain ⟨canonical, -, held⟩ := Option.bind_eq_some_iff.mp found
  exact isCanonical_of_get? consistent held

theorem isCanonical_of_member? (consistent : functions.table.Consistent)
    {container member : String} (found : functions.member? container member = some entry) :
    functions.IsCanonical entry.name := by
  have listed {names : List String}
      (listed : entry ∈ names.filterMap functions.table.entries.get?) :
      functions.IsCanonical entry.name := by
    obtain ⟨name, -, held⟩ := List.mem_filterMap.mp listed
    exact isCanonical_of_get? consistent held
  unfold member? at found
  split at found
  · next keyed =>
    cases found
    exact isCanonical_of_entry? consistent keyed
  · rcases List.mem_append.mp (List.mem_of_find?_eq_some found) with inSpace | inModule
    · split at inSpace
      · exact listed inSpace
      · cases inSpace
    · exact listed inModule

end FunctionTable

namespace Typed

/-- A variable has the type that its binder records; without a binder it is built in. -/
def VariableScoped (Γ : Locals) (name : String) (ty : Ty) : Prop :=
  match Γ.lookup name with
  | some recorded => ty = recorded
  | none => isBuiltin name = true

mutual

/-- The names in the expression are scoped where those of `Γ` are local. -/
def Expr.Scoped (functions : FunctionTable) (Γ : Locals) : Expr → Prop
  | ⟨form, ty, _⟩ => form.Scoped functions Γ ty

/-- The names in an expression of this form and type are scoped. -/
def ExprForm.Scoped (functions : FunctionTable) (Γ : Locals) (ty : Ty) : ExprForm → Prop
  | .literal _ => True
  | .var name => VariableScoped Γ name ty
  | .functionRef name => functions.IsCanonical name
  | .binary _ lhs rhs => lhs.Scoped functions Γ ∧ rhs.Scoped functions Γ
  | .unary _ operand => operand.Scoped functions Γ
  | .call callee args => callee.Scoped functions Γ ∧ AllScoped functions Γ args
  | .member object _ => object.Scoped functions Γ
  | .index object position => object.Scoped functions Γ ∧ position.Scoped functions Γ
  | .record _ fields => FieldsScoped functions Γ fields
  | .ifElse condition thenBranch none =>
    condition.Scoped functions Γ ∧ thenBranch.Scoped functions Γ
  | .ifElse condition thenBranch (some elseBranch) =>
    condition.Scoped functions Γ ∧ thenBranch.Scoped functions Γ ∧ elseBranch.Scoped functions Γ
  | .matching scrutinee arms => scrutinee.Scoped functions Γ ∧ ArmsScoped functions Γ arms
  | .lambda params body => body.Scoped functions (paramBinders params ++ Γ)
  | .block stmts none => StmtsScoped functions Γ stmts
  | .block stmts (some result) =>
    StmtsScoped functions Γ stmts ∧ result.Scoped functions (stmtBinders stmts ++ Γ)
  | .array elements => AllScoped functions Γ elements

/-- What is called is registered, built in, or scoped. -/
def Callee.Scoped (functions : FunctionTable) (Γ : Locals) : Callee → Prop
  | .function name => functions.IsCanonical name
  | .builtin name => isBuiltin name = true
  | .method receiver _ => receiver.Scoped functions Γ
  | .value callee => callee.Scoped functions Γ

/-- The names in the expressions are scoped. -/
def AllScoped (functions : FunctionTable) (Γ : Locals) : List Expr → Prop
  | [] => True
  | e :: rest => e.Scoped functions Γ ∧ AllScoped functions Γ rest

/-- The names in the fields are scoped. -/
def FieldsScoped (functions : FunctionTable) (Γ : Locals) : List (String × Expr) → Prop
  | [] => True
  | (_, e) :: rest => e.Scoped functions Γ ∧ FieldsScoped functions Γ rest

/-- The names in the arms are scoped, in each where those of its pattern are local too. -/
def ArmsScoped (functions : FunctionTable) (Γ : Locals) : List Arm → Prop
  | [] => True
  | ⟨pattern, body⟩ :: rest =>
    body.Scoped functions (pattern.binders ++ Γ) ∧ ArmsScoped functions Γ rest

/-- The names in the statement are scoped. -/
def Stmt.Scoped (functions : FunctionTable) (Γ : Locals) : Stmt → Prop
  | ⟨form, _⟩ => form.Scoped functions Γ

/-- The names in a statement of this form are scoped. -/
def StmtForm.Scoped (functions : FunctionTable) (Γ : Locals) : StmtForm → Prop
  | .bind _ _ _ value => value.Scoped functions Γ
  | .assign target value => (Γ.lookup target).isSome = true ∧ value.Scoped functions Γ
  | .expr value => value.Scoped functions Γ
  | .return none => True
  | .return (some value) => value.Scoped functions Γ
  | .ifElse condition thenBody elseBody =>
    condition.Scoped functions Γ ∧ StmtsScoped functions Γ thenBody ∧
      StmtsScoped functions Γ elseBody
  | .whileLoop condition body => condition.Scoped functions Γ ∧ StmtsScoped functions Γ body
  | .forEach name ty iterable body =>
    iterable.Scoped functions Γ ∧ StmtsScoped functions ((name, ty) :: Γ) body
  | .leave => True
  | .next => True

/-- The names in the statements are scoped, in each where those bound before are local. -/
def StmtsScoped (functions : FunctionTable) (Γ : Locals) : List Stmt → Prop
  | [] => True
  | stmt :: rest => stmt.Scoped functions Γ ∧ StmtsScoped functions (stmt.binders ++ Γ) rest

end

end Typed

namespace Elaborates

variable {S : Surroundings} {Γ : Locals}

theorem isCanonical_of_moduleMember? (consistent : S.functions.table.Consistent)
    {object : Source.Expr} {member : String} {entry : Entry Signature}
    (found : S.moduleMember? Γ object member = some entry) :
    S.functions.IsCanonical entry.name := by
  unfold Surroundings.moduleMember? at found
  split at found
  · split at found
    · cases found
    · exact FunctionTable.isCanonical_of_member? consistent found
  · cases found

theorem Callee.scoped (consistent : S.functions.table.Consistent) {name : String}
    {callee : Typed.Callee} (resolved : Callee S name callee) : callee.Scoped S.functions Γ := by
  cases resolved with
  | builtin isBuiltin => simpa [Typed.Callee.Scoped] using isBuiltin
  | function _ found =>
      simpa [Typed.Callee.Scoped] using FunctionTable.isCanonical_of_entry? consistent found

theorem Name.scoped (consistent : S.functions.table.Consistent) {name : String}
    {form : Typed.ExprForm} {ty : Ty} (resolved : Name S Γ name form ty) :
    form.Scoped S.functions Γ ty := by
  cases resolved with
  | bound found => simp [Typed.ExprForm.Scoped, Typed.VariableScoped, found]
  | constructor _ _ callee =>
      simp [Typed.ExprForm.Scoped, Typed.AllScoped, callee.scoped consistent]
  | function _ _ found =>
      simpa [Typed.ExprForm.Scoped] using FunctionTable.isCanonical_of_entry? consistent found
  | truth => simp [Typed.ExprForm.Scoped]
  | builtin unbound _ _ _ result =>
      simp [Typed.ExprForm.Scoped, Typed.VariableScoped, unbound, isBuiltin, result]

mutual

theorem Expr.scoped (consistent : S.functions.table.Consistent) {Γ : Locals} {e : Source.Expr}
    {e' : Typed.Expr} : Expr S Γ e e' → e'.Scoped S.functions Γ
  | .mk form => by
      rw [Typed.Expr.Scoped]
      exact form.scoped consistent

theorem Form.scoped (consistent : S.functions.table.Consistent) {Γ : Locals}
    {form : Source.ExprForm} {form' : Typed.ExprForm} {ty : Ty} :
    Form S Γ form form' ty → form'.Scoped S.functions Γ ty
  | .literal => by
      rw [Typed.ExprForm.Scoped]
      trivial
  | .name resolved => resolved.scoped consistent
  | .binary lhs rhs => by
      rw [Typed.ExprForm.Scoped]
      exact ⟨lhs.scoped consistent, rhs.scoped consistent⟩
  | .unary operand => by
      rw [Typed.ExprForm.Scoped]
      exact operand.scoped consistent
  | .moduleFunction found => by
      rw [Typed.ExprForm.Scoped]
      exact isCanonical_of_moduleMember? consistent found
  | .member _ object => by
      rw [Typed.ExprForm.Scoped]
      exact object.scoped consistent
  | .callName _ callee args => by
      rw [Typed.ExprForm.Scoped]
      exact ⟨callee.scoped consistent, args.scoped consistent⟩
  | .callModuleFunction found args => by
      rw [Typed.ExprForm.Scoped, Typed.Callee.Scoped]
      exact ⟨isCanonical_of_moduleMember? consistent found, args.scoped consistent⟩
  | .callField _ object args => by
      rw [Typed.ExprForm.Scoped, Typed.Callee.Scoped, Typed.Expr.Scoped, Typed.ExprForm.Scoped]
      exact ⟨object.scoped consistent, args.scoped consistent⟩
  | .callMethod _ object args => by
      rw [Typed.ExprForm.Scoped, Typed.Callee.Scoped]
      exact ⟨object.scoped consistent, args.scoped consistent⟩
  | .callValue _ callee args => by
      rw [Typed.ExprForm.Scoped, Typed.Callee.Scoped]
      exact ⟨callee.scoped consistent, args.scoped consistent⟩
  | .index object position => by
      rw [Typed.ExprForm.Scoped]
      exact ⟨object.scoped consistent, position.scoped consistent⟩
  | .record fields => by
      rw [Typed.ExprForm.Scoped]
      exact fields.scoped consistent
  | .ifThen condition thenBranch => by
      rw [Typed.ExprForm.Scoped]
      exact ⟨condition.scoped consistent, thenBranch.scoped consistent⟩
  | .ifElse condition thenBranch elseBranch => by
      rw [Typed.ExprForm.Scoped]
      exact ⟨condition.scoped consistent, thenBranch.scoped consistent,
        elseBranch.scoped consistent⟩
  | .matching scrutinee arms => by
      rw [Typed.ExprForm.Scoped]
      exact ⟨scrutinee.scoped consistent, arms.scoped consistent⟩
  | .lambda _ _ body => by
      rw [Typed.ExprForm.Scoped]
      exact body.scoped consistent
  | .block stmts => by
      rw [Typed.ExprForm.Scoped]
      exact stmts.scoped consistent
  | .blockValue stmts result => by
      rw [Typed.ExprForm.Scoped]
      exact ⟨stmts.scoped consistent, result.scoped consistent⟩
  | .array elements => by
      rw [Typed.ExprForm.Scoped]
      exact elements.scoped consistent

theorem Exprs.scoped (consistent : S.functions.table.Consistent) {Γ : Locals}
    {es : List Source.Expr} {es' : List Typed.Expr} :
    Exprs S Γ es es' → Typed.AllScoped S.functions Γ es'
  | .nil => by
      rw [Typed.AllScoped]
      trivial
  | .cons e rest => by
      rw [Typed.AllScoped]
      exact ⟨e.scoped consistent, rest.scoped consistent⟩

theorem Fields.scoped (consistent : S.functions.table.Consistent) {Γ : Locals}
    {fields : List (String × Source.Expr)} {fields' : List (String × Typed.Expr)} :
    Fields S Γ fields fields' → Typed.FieldsScoped S.functions Γ fields'
  | .nil => by
      rw [Typed.FieldsScoped]
      trivial
  | .cons e rest => by
      rw [Typed.FieldsScoped]
      exact ⟨e.scoped consistent, rest.scoped consistent⟩

theorem Arms.scoped (consistent : S.functions.table.Consistent) {Γ : Locals}
    {arms : List Source.Arm} {arms' : List Typed.Arm} :
    Arms S Γ arms arms' → Typed.ArmsScoped S.functions Γ arms'
  | .nil => by
      rw [Typed.ArmsScoped]
      trivial
  | .cons _ body rest => by
      rw [Typed.ArmsScoped]
      exact ⟨body.scoped consistent, rest.scoped consistent⟩

theorem Stmt.scoped (consistent : S.functions.table.Consistent) {Γ : Locals}
    {stmt : Source.Stmt} {stmt' : Typed.Stmt} : Stmt S Γ stmt stmt' → stmt'.Scoped S.functions Γ
  | .mk form => by
      rw [Typed.Stmt.Scoped]
      exact form.scoped consistent

theorem StmtForm.scoped (consistent : S.functions.table.Consistent) {Γ : Locals}
    {form : Source.StmtForm} {form' : Typed.StmtForm} :
    StmtForm S Γ form form' → form'.Scoped S.functions Γ
  | .bind value _ _ => by
      rw [Typed.StmtForm.Scoped]
      exact value.scoped consistent
  | .assign bound value => by
      rw [Typed.StmtForm.Scoped]
      exact ⟨bound, value.scoped consistent⟩
  | .expr value => by
      rw [Typed.StmtForm.Scoped]
      exact value.scoped consistent
  | .return => by
      rw [Typed.StmtForm.Scoped]
      trivial
  | .returnValue value => by
      rw [Typed.StmtForm.Scoped]
      exact value.scoped consistent
  | .ifElse condition thenBody elseBody => by
      rw [Typed.StmtForm.Scoped]
      exact ⟨condition.scoped consistent, thenBody.scoped consistent, elseBody.scoped consistent⟩
  | .whileLoop condition body => by
      rw [Typed.StmtForm.Scoped]
      exact ⟨condition.scoped consistent, body.scoped consistent⟩
  | .forEach iterable body => by
      rw [Typed.StmtForm.Scoped]
      exact ⟨iterable.scoped consistent, body.scoped consistent⟩
  | .leave => by
      rw [Typed.StmtForm.Scoped]
      trivial
  | .next => by
      rw [Typed.StmtForm.Scoped]
      trivial

theorem Stmts.scoped (consistent : S.functions.table.Consistent) {Γ : Locals}
    {stmts : List Source.Stmt} {stmts' : List Typed.Stmt} :
    Stmts S Γ stmts stmts' → Typed.StmtsScoped S.functions Γ stmts'
  | .nil => by
      rw [Typed.StmtsScoped]
      trivial
  | .cons stmt rest => by
      rw [Typed.StmtsScoped]
      exact ⟨stmt.scoped consistent, rest.scoped consistent⟩

end

/-- The names in the body of a function are scoped where its parameters are local. -/
theorem Function.scoped {env : Environment} {decl : Source.Function} {lowered : Typed.Function}
    (elaborates : Function env decl lowered) (consistent : env.functions.table.Consistent)
    {body : Typed.Expr} (present : lowered.body = some body) :
    body.Scoped env.functions (Typed.paramBinders lowered.params) := by
  have bodies := elaborates.body
  rw [present] at bodies
  generalize decl.body = written at bodies
  cases bodies with
  | some elaborated => exact elaborated.scoped consistent

theorem Items.function_of_mem {env : Environment} {s : LowerState} {items : List Source.Item}
    {items' : List Typed.Item} (elaborated : Items env s items items')
    {lowered : Typed.Function} (mem : .function lowered ∈ items') :
    ∃ decl, Function env decl lowered := by
  induction elaborated with
  | nil => cases mem
  | function first rest ih =>
      rcases List.mem_cons.mp mem with same | mem
      · cases same
        exact ⟨_, first⟩
      · exact ih mem
  | type first rest ih =>
      rcases List.mem_cons.mp mem with same | mem
      · cases same
      · exact ih mem

end Elaborates

namespace Lower

/-- In the bodies of an accepted module every name is accounted for: variables by lexical
scope or as built in, what is assigned to by lexical scope, and functions by the table that
is left in the end. -/
theorem accepted_bodies_scoped (config : Config) (source : Option (String → Option Summary))
    {s after : LowerState} (reachable : s.Reachable) {m : Source.Module} {lowered : Typed.Module}
    (accepted : (lowerModule m).run { config, source } s = (.ok lowered, after)) :
    ∀ f ∈ lowered.functions, ∀ body, f.body = some body →
      body.Scoped after.env.functions (Typed.paramBinders f.params) := by
  intro f declared body present
  obtain ⟨-, _, -, items⟩ := elaborates_lowerModule rfl reachable.atRest accepted
  have listed : .function f ∈ lowered.items := by
    obtain ⟨item, mem, isFunction⟩ := List.mem_filterMap.mp declared
    cases item with
    | function decl =>
        obtain rfl := Option.some.inj isFunction
        exact mem
    | type decl => cases isFunction
  obtain ⟨decl, elaborates⟩ := items.function_of_mem listed
  have settled := settles_lowerModule m { config, source } rfl s reachable.atRest
  rw [show lowerModule m { config, source } s = _ from accepted] at settled
  exact elaborates.scoped settled.env.functions.consistent present

theorem accepted_bodies_scoped_shadowing :
    let pick : Source.Function := {
      name := "pick"
      params := [{ name := "x", ty := .named "Choice" }]
      result := some (.named "i32")
      body := some ⟨.matching ⟨.var "x", none⟩ [
        ⟨.or [.constructor "Left" [.bind "x"], .constructor "Right" [.bind "x"]],
          ⟨.block [
            ⟨.bind "x" true none
              ⟨.binary .add ⟨.var "x", none⟩ ⟨.literal (.int 1), none⟩, none⟩, none⟩,
            ⟨.assign "x" ⟨.call ⟨.lambda [⟨"x", some (.named "i32")⟩] none ⟨.var "x", none⟩, none⟩
              [⟨.var "x", none⟩], none⟩, none⟩,
            ⟨.expr ⟨.call ⟨.var "print", none⟩ [⟨.var "x", none⟩], none⟩, none⟩]
            (some ⟨.var "x", none⟩), none⟩, none⟩], none⟩ }
    let choice : Source.TypeDecl :=
      { name := "Choice", body := .sum [("Left", [.named "i32"]), ("Right", [.named "i32"])] }
    let m : Source.Module := { name := "choices", items := [.function pick, .type choice] }
    ∃ lowered after, (lowerModule m).run {} {} = (.ok lowered, after) ∧
      lowered.functions.length = 1 ∧
      ∀ f ∈ lowered.functions, ∀ body, f.body = some body →
        body.Scoped after.env.functions (Typed.paramBinders f.params) := by
  intro pick choice m
  have ok : (((lowerModule m).run {} {}).1.toOption.map fun lowered =>
      lowered.functions.length) = some 1 := by decide +kernel
  rcases accepted : (lowerModule m).run {} {} with ⟨_ | lowered, after⟩
  · rw [accepted] at ok
    cases ok
  · rw [accepted] at ok
    exact ⟨lowered, after, rfl, Option.some.inj ok, accepted_bodies_scoped {} none .start accepted⟩

end Lower

end ModuleTyping
