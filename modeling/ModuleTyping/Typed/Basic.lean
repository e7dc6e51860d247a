import ModuleTyping.Literal
import ModuleTyping.Span
import ModuleTyping.SymbolTable.Functions

/-!
# Typed programs

What a module is lowered to: the same tree, in which every expression has its type, every
written type is resolved, and every call says what it calls.
-/

namespace ModuleTyping.Typed

/-- A parameter and its type. -/
structure Param where
  name : String
  ty : Ty

/-- A pattern, with the type of what it binds or takes apart. -/
inductive Pattern where
  | wildcard
  | bind (name : String) (ty : Ty)
  | literal (value : Literal)
  | constructor (name : String) (fields : List Pattern) (ty : Ty)
  | or (alternatives : List Pattern)

mutual

/-- An expression, its type, and the place it comes from. -/
structure Expr where
  form : ExprForm
  ty : Ty
  origin : Origin

/-- The forms of expressions. -/
inductive ExprForm where
  | literal (value : Literal)
  | var (name : String)
  /-- A function as a value, by its registered name. -/
  | functionRef (name : String)
  | binary (op : BinaryOp) (lhs rhs : Expr)
  | unary (op : UnaryOp) (operand : Expr)
  | call (callee : Callee) (args : List Expr)
  | member (object : Expr) (name : String)
  | index (object position : Expr)
  | record (name : String) (fields : List (String × Expr))
  | ifElse (condition thenBranch : Expr) (elseBranch : Option Expr)
  | matching (scrutinee : Expr) (arms : List Arm)
  | lambda (params : List Param) (body : Expr)
  | block (stmts : List Stmt) (result : Option Expr)
  | array (elements : List Expr)

/-- What a call calls. -/
inductive Callee where
  /-- A function or constructor, by its registered name. -/
  | function (name : String)
  /-- A function for input or output, or for making text. -/
  | builtin (name : String)
  /-- A built-in method of a value. -/
  | method (receiver : Expr) (name : String)
  /-- A value that is a function. -/
  | value (callee : Expr)

/-- An arm of a match. -/
structure Arm where
  pattern : Pattern
  body : Expr

/-- A statement and the place it comes from. -/
structure Stmt where
  form : StmtForm
  origin : Origin

/-- The forms of statements. -/
inductive StmtForm where
  | bind (name : String) (mutable : Bool) (ty : Ty) (value : Expr)
  | assign (target : String) (value : Expr)
  | expr (value : Expr)
  | return (value : Option Expr)
  | ifElse (condition : Expr) (thenBody elseBody : List Stmt)
  | whileLoop (condition : Expr) (body : List Stmt)
  | forEach (name : String) (ty : Ty) (iterable : Expr) (body : List Stmt)
  | leave
  | next

end

/-- A function with its resolved signature and its effect tags. -/
structure Function where
  name : String
  typeParams : List TypeParam
  params : List Param
  result : Ty
  body : Option Expr
  exported : Bool
  external : Bool
  effects : List Effect
  origin : Origin

/-- A declaration of a type and what it stands for. -/
structure TypeDecl where
  name : String
  ty : Ty
  typeParams : List TypeParam
  exported : Bool
  origin : Origin

/-- What is declared. -/
def TypeDecl.info (decl : TypeDecl) : TypeInfo where
  name := decl.name
  ty := decl.ty
  typeParams := decl.typeParams

/-- An item of a module. -/
inductive Item where
  | function (decl : Function)
  | type (decl : TypeDecl)

/-- A module and the namespace of its symbols. -/
structure Module where
  name : String
  namespaceName : Option String
  items : List Item

namespace Module

/-- The functions of a module, in order. -/
def functions (m : Module) : List Function :=
  m.items.filterMap fun
    | .function decl => some decl
    | .type _ => none

/-- The type declarations of a module, in order. -/
def types (m : Module) : List TypeDecl :=
  m.items.filterMap fun
    | .type decl => some decl
    | .function _ => none

end Module

end ModuleTyping.Typed
