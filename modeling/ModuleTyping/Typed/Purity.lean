import ModuleTyping.Ty.Names
import ModuleTyping.Typed.Basic

/-!
# Effects of functions

An expression is pure when every call in it is one of a function or method that is not
known for effects by its name, and yields a scalar that is known when a program is built.
Building a lambda has no effect, whatever its body does, so bodies of lambdas do not
count. A pure function is tagged so, and a pure function that yields such a scalar can be
evaluated when a program is built.
-/

namespace ModuleTyping.Typed

/-- How the names of functions with effects start. -/
def impureStarts : List String :=
  ["print", "read", "write", "open", "close", "to_string", "format"]

/-- The name is known for effects. -/
def isImpureName (name : String) : Bool :=
  impureStarts.any fun start => start.toList.isPrefixOf name.toList

/-- A value of this type is known when a program is built. -/
def isLiteralTy : Ty → Bool
  | .primitive name => isLiteralName name
  | .unit => true
  | _ => false

mutual

/-- No call in the expression has an effect. -/
def Expr.isPure : Expr → Bool
  | ⟨form, ty, _⟩ => form.isPure ty

/-- No call in an expression of this form and type has an effect. -/
def ExprForm.isPure (ty : Ty) : ExprForm → Bool
  | .literal _ => true
  | .var _ => true
  | .functionRef _ => true
  | .binary _ lhs rhs => lhs.isPure && rhs.isPure
  | .unary _ operand => operand.isPure
  | .call callee args => isLiteralTy ty && callee.isPure && arePure args
  | .member object _ => object.isPure
  | .index object position => object.isPure && position.isPure
  | .record _ fields => fieldsArePure fields
  | .ifElse condition thenBranch none => condition.isPure && thenBranch.isPure
  | .ifElse condition thenBranch (some elseBranch) =>
    condition.isPure && thenBranch.isPure && elseBranch.isPure
  | .matching scrutinee arms => scrutinee.isPure && armsArePure arms
  | .lambda _ _ => true
  | .block stmts none => stmtsArePure stmts
  | .block stmts (some result) => stmtsArePure stmts && result.isPure
  | .array elements => arePure elements

/-- What is called has no effect. -/
def Callee.isPure : Callee → Bool
  | .function name => !isImpureName name
  | .method receiver name => !isImpureName name && receiver.isPure
  | .builtin _ => false
  | .value _ => false

/-- No call in the statement has an effect. -/
def Stmt.isPure : Stmt → Bool
  | ⟨form, _⟩ => form.isPure

/-- No call in a statement of this form has an effect. -/
def StmtForm.isPure : StmtForm → Bool
  | .bind _ _ _ value => value.isPure
  | .assign _ value => value.isPure
  | .expr value => value.isPure
  | .return none => true
  | .return (some value) => value.isPure
  | .ifElse condition thenBody elseBody =>
    condition.isPure && stmtsArePure thenBody && stmtsArePure elseBody
  | .whileLoop condition body => condition.isPure && stmtsArePure body
  | .forEach _ _ iterable body => iterable.isPure && stmtsArePure body
  | .leave => true
  | .next => true

/-- No call in the expressions has an effect. -/
def arePure : List Expr → Bool
  | [] => true
  | e :: rest => e.isPure && arePure rest

/-- No call in the fields has an effect. -/
def fieldsArePure : List (String × Expr) → Bool
  | [] => true
  | (_, e) :: rest => e.isPure && fieldsArePure rest

/-- No call in the bodies of the arms has an effect. -/
def armsArePure : List Arm → Bool
  | [] => true
  | ⟨_, body⟩ :: rest => body.isPure && armsArePure rest

/-- No call in the statements has an effect. -/
def stmtsArePure : List Stmt → Bool
  | [] => true
  | s :: rest => s.isPure && stmtsArePure rest

end

/-- The effect tags of a function with this body and result. A function without a body
cannot be looked into and has none. -/
def effectsOf (body : Option Expr) (result : Ty) : List Effect :=
  match body with
  | none => []
  | some body =>
    if body.isPure then
      if isLiteralTy result then [.pure, .constexpr] else [.pure]
    else []

end ModuleTyping.Typed
