import ModuleTyping.Literal
import ModuleTyping.Span

/-!
# Source programs

The declarations of a module as they were written: names are not resolved and types are
as the programmer spelled them. Expressions, statements, arms and declarations carry the
place they come from, so that a fault can be blamed on it.
-/

namespace ModuleTyping

/-- A type as it is written in a program. -/
inductive WrittenType where
  | named (name : String)
  | generic (name : String) (args : List WrittenType)
  | array (element : WrittenType)
  | function (params : List WrittenType) (result : WrittenType)
  | ref (referent : WrittenType)
  | mutRef (referent : WrittenType)
  | map (key value : WrittenType)
  | unit

namespace Source

/-- A pattern. A name on its own may turn out to be a constructor without fields. -/
inductive Pattern where
  | wildcard
  | bind (name : String)
  | literal (value : Literal)
  | constructor (name : String) (fields : List Pattern)
  | or (alternatives : List Pattern)

/-- A parameter of a lambda, whose type may be left to the context. -/
structure LambdaParam where
  name : String
  ty : Option WrittenType

mutual

/-- An expression and the place it comes from. -/
structure Expr where
  form : ExprForm
  origin : Origin

/-- The forms of expressions. -/
inductive ExprForm where
  | literal (value : Literal)
  | var (name : String)
  | binary (op : BinaryOp) (lhs rhs : Expr)
  | unary (op : UnaryOp) (operand : Expr)
  | call (callee : Expr) (args : List Expr)
  | member (object : Expr) (name : String)
  | index (object position : Expr)
  /-- A record literal; without a name, its type is found by its fields. -/
  | record (name : Option String) (fields : List (String × Expr))
  | ifElse (condition thenBranch : Expr) (elseBranch : Option Expr)
  | matching (scrutinee : Expr) (arms : List Arm)
  | lambda (params : List LambdaParam) (result : Option WrittenType) (body : Expr)
  | block (stmts : List Stmt) (result : Option Expr)
  | array (elements : List Expr)

/-- An arm of a match and the place it comes from. -/
structure Arm where
  pattern : Pattern
  body : Expr
  origin : Origin

/-- A statement and the place it comes from. -/
structure Stmt where
  form : StmtForm
  origin : Origin

/-- The forms of statements. -/
inductive StmtForm where
  | bind (name : String) (mutable : Bool) (ty : Option WrittenType) (value : Expr)
  | assign (target : String) (value : Expr)
  | expr (value : Expr)
  | return (value : Option Expr)
  | ifElse (condition : Expr) (thenBody elseBody : List Stmt)
  | whileLoop (condition : Expr) (body : List Stmt)
  | forEach (name : String) (iterable : Expr) (body : List Stmt)
  | leave
  | next

end

/-- A parameter of a function. -/
structure Param where
  name : String
  ty : WrittenType

/-- A function. Without a result type it yields nothing, and without a body it is
implemented elsewhere. -/
structure Function where
  name : String
  typeParams : List TypeParam := []
  params : List Param := []
  result : Option WrittenType := none
  body : Option Expr := none
  exported : Bool := false
  external : Bool := false
  origin : Origin := none

/-- The function is implemented elsewhere. -/
def Function.isExternal (decl : Function) : Bool :=
  decl.external || decl.body.isNone

/-- What a declared type is. -/
inductive TypeBody where
  | record (fields : List (String × WrittenType))
  | sum (variants : List (String × List WrittenType))
  | abstract
  /-- Another name for a type. -/
  | synonym (target : WrittenType)

/-- A declaration of a type. -/
structure TypeDecl where
  name : String
  typeParams : List TypeParam := []
  body : TypeBody
  exported : Bool := false
  origin : Origin := none

/-- An item of a module. -/
inductive Item where
  | function (decl : Function)
  | type (decl : TypeDecl)

/-- An import of a module: the items it names, or all of them when it names none, and the
name the module is imported as. -/
structure Import where
  moduleName : String
  items : List String := []
  importedAs : Option String := none
  origin : Origin := none

/-- A module. -/
structure Module where
  name : String
  imports : List Import := []
  items : List Item := []

end Source

end ModuleTyping
