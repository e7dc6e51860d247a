import ModuleTyping.Proofs.Typed.Purity

/-!
# Where calls stand

The code of a function is a tree of expressions and statements, and each of them has parts that
stand directly in it (`Node.parts`). A lambda has none: its body is not run where the lambda
stands. What is reached from part to part is within a node (`Node.Holds`).

The calls that are listed for a node are its own call, if it is one, and those of its parts
(`Node.calls_eq`), so they are the calls within the node and no others (`Node.mem_calls_iff`).
What purity says of the calls that are listed, it therefore says of every call in every
position.
-/

namespace ModuleTyping.Typed

open Relation (ReflTransGen)

/-- A piece of code. -/
inductive Node where
  | expr (e : Expr)
  | stmt (s : Stmt)

/-- What is called may have to be worked out first. -/
def Callee.parts : Callee → List Node
  | .function _ => []
  | .builtin _ => []
  | .method receiver _ => [.expr receiver]
  | .value callee => [.expr callee]

/-- The code that stands directly in an expression of this form. -/
def ExprForm.parts : ExprForm → List Node
  | .literal _ => []
  | .var _ => []
  | .functionRef _ => []
  | .binary _ lhs rhs => [.expr lhs, .expr rhs]
  | .unary _ operand => [.expr operand]
  | .call callee args => callee.parts ++ args.map .expr
  | .member object _ => [.expr object]
  | .index object position => [.expr object, .expr position]
  | .record _ fields => fields.map fun field => .expr field.2
  | .ifElse condition thenBranch elseBranch =>
    [.expr condition, .expr thenBranch] ++ elseBranch.toList.map .expr
  | .matching scrutinee arms => .expr scrutinee :: arms.map fun arm => .expr arm.body
  | .lambda _ _ => []
  | .block stmts result => stmts.map .stmt ++ result.toList.map .expr
  | .array elements => elements.map .expr

/-- The code that stands directly in a statement of this form. -/
def StmtForm.parts : StmtForm → List Node
  | .bind _ _ _ value => [.expr value]
  | .assign _ value => [.expr value]
  | .expr value => [.expr value]
  | .return value => value.toList.map .expr
  | .ifElse condition thenBody elseBody =>
    .expr condition :: (thenBody.map .stmt ++ elseBody.map .stmt)
  | .whileLoop condition body => .expr condition :: body.map .stmt
  | .forEach _ _ iterable body => .expr iterable :: body.map .stmt
  | .leave => []
  | .next => []

namespace Node

/-- The code that stands directly in a piece of code. -/
def parts : Node → List Node
  | .expr e => e.form.parts
  | .stmt s => s.form.parts

/-- The first piece of code is the second, or holds it in a part, or in a part of a part, and
so on. -/
def Holds : Node → Node → Prop :=
  ReflTransGen fun whole part => part ∈ whole.parts

/-- Taking part after part of a piece of code comes to an end. -/
def Ends : Node → Prop :=
  Acc fun part whole => part ∈ whole.parts

/-- The calls that are listed for a piece of code, without those in the bodies of lambdas. -/
def calls : Node → List Call
  | .expr e => e.calls false
  | .stmt s => s.calls false

/-- The call that a piece of code is itself. -/
def call? : Node → Option Call
  | .expr ⟨.call callee _, ty, _⟩ => some ⟨callee, ty⟩
  | _ => none

/-! ### Calls, node by node -/

theorem callsAll_eq (es : List Expr) : callsAll false es = (es.map expr).flatMap calls := by
  induction es with
  | nil => rfl
  | cons e rest ih => rw [callsAll, ih, List.map_cons, List.flatMap_cons, calls]

theorem callsFields_eq (fields : List (String × Expr)) :
    callsFields false fields = (fields.map fun field => expr field.2).flatMap calls := by
  induction fields with
  | nil => rfl
  | cons field rest ih => rw [callsFields, ih, List.map_cons, List.flatMap_cons, calls]

theorem callsArms_eq (arms : List Arm) :
    callsArms false arms = (arms.map fun arm => expr arm.body).flatMap calls := by
  induction arms with
  | nil => rfl
  | cons arm rest ih =>
      obtain ⟨pattern, body⟩ := arm
      rw [callsArms, ih, List.map_cons, List.flatMap_cons, calls]

theorem callsStmts_eq (stmts : List Stmt) :
    callsStmts false stmts = (stmts.map stmt).flatMap calls := by
  induction stmts with
  | nil => rfl
  | cons s rest ih => rw [callsStmts, ih, List.map_cons, List.flatMap_cons, calls]

theorem calls_callee (callee : Callee) : callee.calls false = callee.parts.flatMap calls := by
  cases callee <;> simp [Callee.calls, Callee.parts, calls]

/-- The calls that are listed are the node's own and those of its parts. -/
theorem calls_eq (node : Node) : node.calls = node.call?.toList ++ node.parts.flatMap calls := by
  cases node with
  | expr e =>
      obtain ⟨form, ty, origin⟩ := e
      show form.calls false ty = _ ++ form.parts.flatMap calls
      cases form with
      | call callee args =>
          simp [ExprForm.calls, ExprForm.parts, call?, calls_callee, callsAll_eq]
      | ifElse condition thenBranch elseBranch =>
          cases elseBranch <;> simp [ExprForm.calls, ExprForm.parts, call?, calls]
      | block stmts result =>
          cases result <;> simp [ExprForm.calls, ExprForm.parts, call?, calls, callsStmts_eq]
      | _ =>
          simp [ExprForm.calls, ExprForm.parts, call?, calls, callsAll_eq, callsFields_eq,
            callsArms_eq]
  | stmt s =>
      obtain ⟨form, origin⟩ := s
      show form.calls false = form.parts.flatMap calls
      cases form with
      | «return» value => cases value <;> simp [StmtForm.calls, StmtForm.parts, calls]
      | _ => simp [StmtForm.calls, StmtForm.parts, calls, callsStmts_eq]

/-! ### Parts come to an end -/

mutual

theorem ends_expr : (e : Expr) → Ends (expr e)
  | ⟨form, _, _⟩ => .intro _ (ends_parts form)

theorem ends_parts : (form : ExprForm) → ∀ part ∈ form.parts, Ends part
  | .literal _ => List.forall_mem_nil _
  | .var _ => List.forall_mem_nil _
  | .functionRef _ => List.forall_mem_nil _
  | .binary _ lhs rhs =>
      List.forall_mem_cons.mpr ⟨ends_expr lhs, List.forall_mem_singleton.mpr (ends_expr rhs)⟩
  | .unary _ operand => List.forall_mem_singleton.mpr (ends_expr operand)
  | .call callee args => List.forall_mem_append.mpr ⟨ends_callee callee, ends_exprs args⟩
  | .member object _ => List.forall_mem_singleton.mpr (ends_expr object)
  | .index object position =>
      List.forall_mem_cons.mpr
        ⟨ends_expr object, List.forall_mem_singleton.mpr (ends_expr position)⟩
  | .record _ fields => ends_fields fields
  | .ifElse condition thenBranch none =>
      List.forall_mem_cons.mpr
        ⟨ends_expr condition, List.forall_mem_singleton.mpr (ends_expr thenBranch)⟩
  | .ifElse condition thenBranch (some elseBranch) =>
      List.forall_mem_cons.mpr ⟨ends_expr condition, List.forall_mem_cons.mpr
        ⟨ends_expr thenBranch, List.forall_mem_singleton.mpr (ends_expr elseBranch)⟩⟩
  | .matching scrutinee arms =>
      List.forall_mem_cons.mpr ⟨ends_expr scrutinee, ends_arms arms⟩
  | .lambda _ _ => List.forall_mem_nil _
  | .block stmts none => List.forall_mem_append.mpr ⟨ends_stmts stmts, List.forall_mem_nil _⟩
  | .block stmts (some result) =>
      List.forall_mem_append.mpr
        ⟨ends_stmts stmts, List.forall_mem_singleton.mpr (ends_expr result)⟩
  | .array elements => ends_exprs elements

theorem ends_callee : (callee : Callee) → ∀ part ∈ callee.parts, Ends part
  | .function _ => List.forall_mem_nil _
  | .builtin _ => List.forall_mem_nil _
  | .method receiver _ => List.forall_mem_singleton.mpr (ends_expr receiver)
  | .value callee => List.forall_mem_singleton.mpr (ends_expr callee)

theorem ends_stmt : (s : Stmt) → Ends (stmt s)
  | ⟨form, _⟩ => .intro _ (ends_stmtParts form)

theorem ends_stmtParts : (form : StmtForm) → ∀ part ∈ form.parts, Ends part
  | .bind _ _ _ value => List.forall_mem_singleton.mpr (ends_expr value)
  | .assign _ value => List.forall_mem_singleton.mpr (ends_expr value)
  | .expr value => List.forall_mem_singleton.mpr (ends_expr value)
  | .return none => List.forall_mem_nil _
  | .return (some value) => List.forall_mem_singleton.mpr (ends_expr value)
  | .ifElse condition thenBody elseBody =>
      List.forall_mem_cons.mpr ⟨ends_expr condition,
        List.forall_mem_append.mpr ⟨ends_stmts thenBody, ends_stmts elseBody⟩⟩
  | .whileLoop condition body =>
      List.forall_mem_cons.mpr ⟨ends_expr condition, ends_stmts body⟩
  | .forEach _ _ iterable body =>
      List.forall_mem_cons.mpr ⟨ends_expr iterable, ends_stmts body⟩
  | .leave => List.forall_mem_nil _
  | .next => List.forall_mem_nil _

theorem ends_exprs : (es : List Expr) → ∀ part ∈ es.map expr, Ends part
  | [] => List.forall_mem_nil _
  | e :: rest => List.forall_mem_cons.mpr ⟨ends_expr e, ends_exprs rest⟩

theorem ends_fields : (fields : List (String × Expr)) →
    ∀ part ∈ fields.map fun field => expr field.2, Ends part
  | [] => List.forall_mem_nil _
  | (_, e) :: rest => List.forall_mem_cons.mpr ⟨ends_expr e, ends_fields rest⟩

theorem ends_arms : (arms : List Arm) → ∀ part ∈ arms.map fun arm => expr arm.body, Ends part
  | [] => List.forall_mem_nil _
  | ⟨_, body⟩ :: rest => List.forall_mem_cons.mpr ⟨ends_expr body, ends_arms rest⟩

theorem ends_stmts : (stmts : List Stmt) → ∀ part ∈ stmts.map stmt, Ends part
  | [] => List.forall_mem_nil _
  | s :: rest => List.forall_mem_cons.mpr ⟨ends_stmt s, ends_stmts rest⟩

end

theorem wellFounded_parts : WellFounded fun part whole : Node => part ∈ whole.parts := by
  refine ⟨fun node => ?_⟩
  cases node with
  | expr e => exact ends_expr e
  | stmt s => exact ends_stmt s

/-! ### Calls within a node -/

theorem eq_of_call? {node : Node} {call : Call} (own : node.call? = some call) :
    ∃ args origin, node = expr ⟨.call call.callee args, call.ty, origin⟩ := by
  unfold call? at own
  split at own
  · next callee args ty origin =>
      obtain rfl := Option.some.inj own
      exact ⟨args, origin, rfl⟩
  · cases own

/-- The calls that are listed for a node are the calls within it. -/
theorem mem_calls_iff {node : Node} {call : Call} :
    call ∈ node.calls ↔ ∃ inner, node.Holds inner ∧ inner.call? = some call := by
  constructor
  · intro member
    induction node using wellFounded_parts.induction with
    | _ node ih =>
        rw [calls_eq] at member
        rcases List.mem_append.mp member with own | member
        · exact ⟨node, .refl, Option.mem_toList.mp own⟩
        · obtain ⟨part, isPart, member⟩ := List.mem_flatMap.mp member
          obtain ⟨inner, holds, own⟩ := ih part isPart member
          exact ⟨inner, .head isPart holds, own⟩
  · rintro ⟨inner, holds, own⟩
    induction holds using ReflTransGen.head_induction_on with
    | refl =>
        rw [calls_eq]
        exact List.mem_append_left _ (Option.mem_toList.mpr own)
    | head isPart _ ih =>
        rw [calls_eq]
        exact List.mem_append_right _ (List.mem_flatMap.mpr ⟨_, isPart, ih⟩)

end Node

/-! ### Purity by position -/

/-- The type is the one of no value, or a scalar whose values are known when a program is
built. -/
def IsLiteral (ty : Ty) : Prop :=
  ty = .unit ∨ ∃ name ∈ numericNames ++ ["bool", "usize", "unit", "void"], ty = .primitive name

/-- What is called is a function or a method, and its name does not start as the names of
functions with effects do. -/
def Callee.IsHarmless (callee : Callee) : Prop :=
  ∃ name, (callee = .function name ∨ ∃ receiver, callee = .method receiver name) ∧
    ∀ start ∈ impureStarts, ¬ start.toList <+: name.toList

theorem isLiteralTy_iff {ty : Ty} : isLiteralTy ty = true ↔ IsLiteral ty := by
  cases ty with
  | primitive name => simp [isLiteralTy, IsLiteral, isLiteralName, isNumericName, or_assoc]
  | _ => simp [isLiteralTy, IsLiteral]

theorem not_isImpureName_iff {name : String} :
    (!isImpureName name) = true ↔ ∀ start ∈ impureStarts, ¬ start.toList <+: name.toList := by
  simp [isImpureName]

theorem Call.isHarmless_iff {call : Call} :
    call.isHarmless = true ↔ IsLiteral call.ty ∧ call.callee.IsHarmless := by
  obtain ⟨callee, ty⟩ := call
  rw [Call.isHarmless, Bool.and_eq_true, isLiteralTy_iff]
  refine and_congr_right fun _ => ?_
  cases callee with
  | function name | method receiver name =>
      rw [not_isImpureName_iff]
      simp [Callee.IsHarmless]
  | builtin name | value callee => simp [Callee.IsHarmless]

/-- An expression is pure exactly if every call in it, in whatever position outside the bodies of
lambdas, yields a value that is known when a program is built and calls a function or method
whose name does not start as those of functions with effects do. A function is tagged pure
exactly if it has a body and the body is pure, and can be evaluated when a program is built
exactly if it also yields such a value; it has no other tags. -/
theorem purity_by_position :
    (∀ e : Expr, e.isPure = true ↔ ∀ (callee : Callee) (args : List Expr) (ty : Ty)
      (origin : Origin), Node.Holds (.expr e) (.expr ⟨.call callee args, ty, origin⟩) →
        IsLiteral ty ∧ callee.IsHarmless) ∧
    ∀ f : Function,
      (effectsOf f.body f.result = [.pure, .constexpr] ↔
        (∃ body, f.body = some body ∧ body.isPure = true) ∧ IsLiteral f.result) ∧
      (effectsOf f.body f.result = [.pure] ↔
        (∃ body, f.body = some body ∧ body.isPure = true) ∧ ¬ IsLiteral f.result) ∧
      (effectsOf f.body f.result = [] ↔
        ¬ ∃ body, f.body = some body ∧ body.isPure = true) := by
  refine ⟨fun e => ?_, fun f => ?_⟩
  · rw [e.isPure_eq, List.all_eq_true]
    constructor
    · intro harmless callee args ty origin holds
      have listed : ⟨callee, ty⟩ ∈ e.calls false := Node.mem_calls_iff.mpr ⟨_, holds, rfl⟩
      exact Call.isHarmless_iff.mp (harmless _ listed)
    · intro harmless call listed
      obtain ⟨node, holds, own⟩ := (@Node.mem_calls_iff (.expr e) call).mp listed
      obtain ⟨args, origin, rfl⟩ := Node.eq_of_call? own
      exact Call.isHarmless_iff.mpr (harmless call.callee args call.ty origin holds)
  · simp only [← isLiteralTy_iff, effectsOf]
    cases f.body with
    | none => simp
    | some body =>
        cases pure : body.isPure with
        | false => simp [pure]
        | true => cases isLiteralTy f.result <;> simp [pure]

end ModuleTyping.Typed
