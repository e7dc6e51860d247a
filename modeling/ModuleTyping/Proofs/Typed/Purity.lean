import Mathlib.Logic.Relation
import ModuleTyping.Typed.Purity

/-!
# Calls and purity

`Expr.calls` lists the calls in an expression with what each of them calls and yields, with
or without those in the bodies of lambdas. An expression is pure exactly if every call in it
outside of lambdas is harmless, which is decided by what it yields and by the name of what
it calls (`Expr.isPure_eq`).

So a tag on a function speaks of that function alone. The calls that it does not speak of
are those in lambdas and those in the functions that are called
(`Module.exists_untagged_of_reached`).
-/

namespace ModuleTyping.Typed

/-- A call: what is called, and the type of what the call yields. -/
structure Call where
  callee : Callee
  ty : Ty

mutual

/-- The calls in an expression. Those in the bodies of lambdas are listed if `lambdas` says
so. -/
def Expr.calls (lambdas : Bool) : Expr → List Call
  | ⟨form, ty, _⟩ => form.calls lambdas ty

/-- The calls in an expression of this form and type. -/
def ExprForm.calls (lambdas : Bool) (ty : Ty) : ExprForm → List Call
  | .literal _ => []
  | .var _ => []
  | .functionRef _ => []
  | .binary _ lhs rhs => lhs.calls lambdas ++ rhs.calls lambdas
  | .unary _ operand => operand.calls lambdas
  | .call callee args => ⟨callee, ty⟩ :: (callee.calls lambdas ++ callsAll lambdas args)
  | .member object _ => object.calls lambdas
  | .index object position => object.calls lambdas ++ position.calls lambdas
  | .record _ fields => callsFields lambdas fields
  | .ifElse condition thenBranch none => condition.calls lambdas ++ thenBranch.calls lambdas
  | .ifElse condition thenBranch (some elseBranch) =>
    condition.calls lambdas ++ thenBranch.calls lambdas ++ elseBranch.calls lambdas
  | .matching scrutinee arms => scrutinee.calls lambdas ++ callsArms lambdas arms
  | .lambda _ body => if lambdas then body.calls lambdas else []
  | .block stmts none => callsStmts lambdas stmts
  | .block stmts (some result) => callsStmts lambdas stmts ++ result.calls lambdas
  | .array elements => callsAll lambdas elements

/-- The calls that working out what is called makes. -/
def Callee.calls (lambdas : Bool) : Callee → List Call
  | .function _ => []
  | .builtin _ => []
  | .method receiver _ => receiver.calls lambdas
  | .value callee => callee.calls lambdas

/-- The calls in a statement. -/
def Stmt.calls (lambdas : Bool) : Stmt → List Call
  | ⟨form, _⟩ => form.calls lambdas

/-- The calls in a statement of this form. -/
def StmtForm.calls (lambdas : Bool) : StmtForm → List Call
  | .bind _ _ _ value => value.calls lambdas
  | .assign _ value => value.calls lambdas
  | .expr value => value.calls lambdas
  | .return none => []
  | .return (some value) => value.calls lambdas
  | .ifElse condition thenBody elseBody =>
    condition.calls lambdas ++ callsStmts lambdas thenBody ++ callsStmts lambdas elseBody
  | .whileLoop condition body => condition.calls lambdas ++ callsStmts lambdas body
  | .forEach _ _ iterable body => iterable.calls lambdas ++ callsStmts lambdas body
  | .leave => []
  | .next => []

/-- The calls in the expressions. -/
def callsAll (lambdas : Bool) : List Expr → List Call
  | [] => []
  | e :: rest => e.calls lambdas ++ callsAll lambdas rest

/-- The calls in the fields. -/
def callsFields (lambdas : Bool) : List (String × Expr) → List Call
  | [] => []
  | (_, e) :: rest => e.calls lambdas ++ callsFields lambdas rest

/-- The calls in the bodies of the arms. -/
def callsArms (lambdas : Bool) : List Arm → List Call
  | [] => []
  | ⟨_, body⟩ :: rest => body.calls lambdas ++ callsArms lambdas rest

/-- The calls in the statements. -/
def callsStmts (lambdas : Bool) : List Stmt → List Call
  | [] => []
  | s :: rest => s.calls lambdas ++ callsStmts lambdas rest

end

namespace Callee

/-- The name of the function that is called. -/
def function? : Callee → Option String
  | .function name => some name
  | _ => none

/-- The name of the built-in function that is called. -/
def builtin? : Callee → Option String
  | .builtin name => some name
  | _ => none

end Callee

/-- The call yields a scalar that is known when a program is built, and calls a function or
method that is not known for effects by its name. -/
def Call.isHarmless (call : Call) : Bool :=
  isLiteralTy call.ty &&
    match call.callee with
    | .function name => !isImpureName name
    | .method _ name => !isImpureName name
    | .builtin _ => false
    | .value _ => false

theorem Call.builtin?_of_isHarmless {call : Call} (harmless : call.isHarmless = true) :
    call.callee.builtin? = none := by
  obtain ⟨callee, ty⟩ := call
  cases callee with
  | builtin name => simp [isHarmless] at harmless
  | _ => rfl

/-! ### Purity by calls -/

mutual

/-- An expression is pure exactly if every call in it outside of lambdas is harmless. -/
theorem Expr.isPure_eq : (e : Expr) → e.isPure = (e.calls false).all Call.isHarmless
  | ⟨form, ty, _⟩ => form.isPure_eq ty

theorem ExprForm.isPure_eq (ty : Ty) :
    (form : ExprForm) → form.isPure ty = (form.calls false ty).all Call.isHarmless
  | .literal _ => rfl
  | .var _ => rfl
  | .functionRef _ => rfl
  | .binary _ lhs rhs => by
      rw [ExprForm.isPure, ExprForm.calls, List.all_append, lhs.isPure_eq, rhs.isPure_eq]
  | .unary _ operand => operand.isPure_eq
  | .call callee args => by
      rw [ExprForm.isPure, ExprForm.calls, List.all_cons, List.all_append, callee.isPure_eq ty,
        arePure_eq args, Bool.and_assoc]
  | .member object _ => object.isPure_eq
  | .index object position => by
      rw [ExprForm.isPure, ExprForm.calls, List.all_append, object.isPure_eq, position.isPure_eq]
  | .record _ fields => fieldsArePure_eq fields
  | .ifElse condition thenBranch none => by
      rw [ExprForm.isPure, ExprForm.calls, List.all_append, condition.isPure_eq,
        thenBranch.isPure_eq]
  | .ifElse condition thenBranch (some elseBranch) => by
      rw [ExprForm.isPure, ExprForm.calls, List.all_append, List.all_append, condition.isPure_eq,
        thenBranch.isPure_eq, elseBranch.isPure_eq]
  | .matching scrutinee arms => by
      rw [ExprForm.isPure, ExprForm.calls, List.all_append, scrutinee.isPure_eq,
        armsArePure_eq arms]
  | .lambda _ _ => rfl
  | .block stmts none => stmtsArePure_eq stmts
  | .block stmts (some result) => by
      rw [ExprForm.isPure, ExprForm.calls, List.all_append, stmtsArePure_eq stmts, result.isPure_eq]
  | .array elements => arePure_eq elements

/-- A call without its arguments: it is harmless, and working out what is called is pure. -/
theorem Callee.isPure_eq (ty : Ty) : (callee : Callee) → (isLiteralTy ty && callee.isPure) =
    ((Call.mk callee ty).isHarmless && (callee.calls false).all Call.isHarmless)
  | .function _ => by simp [Callee.isPure, Callee.calls, Call.isHarmless]
  | .builtin _ => by simp [Callee.isPure, Call.isHarmless]
  | .method receiver _ => by
      rw [Callee.isPure, Callee.calls, receiver.isPure_eq, Call.isHarmless, Bool.and_assoc]
  | .value _ => by simp [Callee.isPure, Call.isHarmless]

theorem Stmt.isPure_eq : (stmt : Stmt) → stmt.isPure = (stmt.calls false).all Call.isHarmless
  | ⟨form, _⟩ => form.isPure_eq

theorem StmtForm.isPure_eq :
    (form : StmtForm) → form.isPure = (form.calls false).all Call.isHarmless
  | .bind _ _ _ value => value.isPure_eq
  | .assign _ value => value.isPure_eq
  | .expr value => value.isPure_eq
  | .return none => rfl
  | .return (some value) => value.isPure_eq
  | .ifElse condition thenBody elseBody => by
      rw [StmtForm.isPure, StmtForm.calls, List.all_append, List.all_append, condition.isPure_eq,
        stmtsArePure_eq thenBody, stmtsArePure_eq elseBody]
  | .whileLoop condition body => by
      rw [StmtForm.isPure, StmtForm.calls, List.all_append, condition.isPure_eq,
        stmtsArePure_eq body]
  | .forEach _ _ iterable body => by
      rw [StmtForm.isPure, StmtForm.calls, List.all_append, iterable.isPure_eq,
        stmtsArePure_eq body]
  | .leave => rfl
  | .next => rfl

theorem arePure_eq : (es : List Expr) → arePure es = (callsAll false es).all Call.isHarmless
  | [] => rfl
  | e :: rest => by rw [arePure, callsAll, List.all_append, e.isPure_eq, arePure_eq rest]

theorem fieldsArePure_eq : (fields : List (String × Expr)) →
    fieldsArePure fields = (callsFields false fields).all Call.isHarmless
  | [] => rfl
  | (_, e) :: rest => by
      rw [fieldsArePure, callsFields, List.all_append, e.isPure_eq, fieldsArePure_eq rest]

theorem armsArePure_eq : (arms : List Arm) →
    armsArePure arms = (callsArms false arms).all Call.isHarmless
  | [] => rfl
  | ⟨_, body⟩ :: rest => by
      rw [armsArePure, callsArms, List.all_append, body.isPure_eq, armsArePure_eq rest]

theorem stmtsArePure_eq : (stmts : List Stmt) →
    stmtsArePure stmts = (callsStmts false stmts).all Call.isHarmless
  | [] => rfl
  | s :: rest => by
      rw [stmtsArePure, callsStmts, List.all_append, s.isPure_eq, stmtsArePure_eq rest]

end

/-! ### Tags -/

/-- The calls in the body of a function. -/
def Function.calls (lambdas : Bool) (f : Function) : List Call :=
  (f.body.map (Expr.calls lambdas)).getD []

/-- A function is tagged pure exactly if it can be looked into and every call in its body
outside of lambdas is harmless. -/
theorem pure_mem_effectsOf_iff (f : Function) : .pure ∈ effectsOf f.body f.result ↔
    f.body.isSome = true ∧ ∀ call ∈ f.calls false, call.isHarmless = true := by
  unfold effectsOf Function.calls
  cases f.body with
  | none => simp
  | some body =>
      simp only [body.isPure_eq, List.all_eq_true, Option.isSome_some, Option.map_some,
        Option.getD_some, true_and]
      split
      · next harmless =>
        refine iff_of_true ?_ harmless
        split <;> exact List.mem_cons_self
      · next harmful => exact iff_of_false List.not_mem_nil harmful

/-- A function of the module that another one calls, in a lambda or outside of it. -/
def Module.Calls (m : Module) (f g : Function) : Prop :=
  g ∈ m.functions ∧ ∃ call ∈ f.calls true, call.callee.function? = some g.name

/-- On the way from a tagged function to one that is not tagged, a tagged function calls one
that is not. -/
theorem Module.exists_untagged_of_reached {m : Module} {f g : Function}
    (tagged : .pure ∈ f.effects) (reached : Relation.ReflTransGen m.Calls f g)
    (untagged : .pure ∉ g.effects) :
    ∃ h k, Relation.ReflTransGen m.Calls f h ∧ .pure ∈ h.effects ∧ m.Calls h k ∧
      .pure ∉ k.effects ∧ Relation.ReflTransGen m.Calls k g := by
  induction reached with
  | refl => exact absurd tagged untagged
  | @tail h g before last ih =>
      by_cases taggedBefore : .pure ∈ h.effects
      · exact ⟨h, g, before, taggedBefore, last, untagged, .refl⟩
      · obtain ⟨h', k, way, taggedThere, calls, leaves, rest⟩ := ih taggedBefore
        exact ⟨h', k, way, taggedThere, calls, leaves, rest.tail last⟩

end ModuleTyping.Typed
