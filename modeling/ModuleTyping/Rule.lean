import ModuleTyping.Fault
import ModuleTyping.Source
import ModuleTyping.Text.Quoted
import ModuleTyping.Typed.Basic

/-!
# Lowering rules

Every part of a module is offered to the rules of its stage in turn, and the first rule
that accepts it lowers it. A rule either lowers the part as one of the shapes the language
has, or gives a product of its own. The standard engine has one rule for each shape, and
rules that are registered before them take precedence.
-/

namespace ModuleTyping

/-- The shapes of the parts of a module. -/
inductive Shape where
  | recordDecl
  | sumDecl
  | abstractDecl
  | aliasDecl
  | function
  | literal
  | identifier
  | member
  | call
  | unary
  | binary
  | recordLiteral
  | ifExpr
  | arrayLiteral
  | index
  | block
  | matching
  | lambda
  | binding
  | assignment
  | exprStmt
  | returnStmt
  | ifStmt
  | whileLoop
  | forEach
  | loopControl
  deriving DecidableEq, Repr

namespace Shape

/-- The shapes, in the order in which the standard engine has their rules. -/
def all : List Shape :=
  [recordDecl, sumDecl, abstractDecl, aliasDecl, function, literal, identifier, member, call,
    unary, binary, recordLiteral, ifExpr, arrayLiteral, index, block, matching, lambda, binding,
    assignment, exprStmt, returnStmt, ifStmt, whileLoop, forEach, loopControl]

/-- The stage at which parts of this shape are lowered. -/
def stage : Shape → Stage
  | recordDecl | sumDecl | abstractDecl | aliasDecl => .typeDecl
  | function => .function
  | literal | identifier | member | call | unary | binary | recordLiteral | ifExpr
  | arrayLiteral | index | block | matching | lambda => .expression
  | binding | assignment | exprStmt | returnStmt | ifStmt | whileLoop | forEach
  | loopControl => .statement

/-- The name of the standard rule for this shape. -/
def ruleName : Shape → String
  | recordDecl => "record_decl"
  | sumDecl => "sum_decl"
  | abstractDecl => "opaque_decl"
  | aliasDecl => "alias_decl"
  | function => "function"
  | literal => "literal"
  | identifier => "variable"
  | member => "member"
  | call => "call"
  | unary => "unary"
  | binary => "binary"
  | recordLiteral => "record_literal"
  | ifExpr => "if_expr"
  | arrayLiteral => "array_literal"
  | index => "index"
  | block => "block"
  | matching => "match"
  | lambda => "lambda"
  | binding => "let"
  | assignment => "assign"
  | exprStmt => "expr_stmt"
  | returnStmt => "return"
  | ifStmt => "if_stmt"
  | whileLoop => "while"
  | forEach => "for"
  | loopControl => "loop_control"

/-- The shape whose standard rule has a name. -/
def ofRuleName? (name : String) : Option Shape :=
  all.find? (·.ruleName == name)

/-- The shape of a declared type. -/
def ofTypeBody : Source.TypeBody → Shape
  | .record _ => recordDecl
  | .sum _ => sumDecl
  | .abstract => abstractDecl
  | .synonym _ => aliasDecl

/-- The shape of an expression. -/
def ofExpr : Source.ExprForm → Shape
  | .literal _ => literal
  | .var _ => identifier
  | .binary _ _ _ => binary
  | .unary _ _ => unary
  | .call _ _ => call
  | .member _ _ => member
  | .index _ _ => index
  | .record _ _ => recordLiteral
  | .ifElse _ _ _ => ifExpr
  | .matching _ _ => matching
  | .lambda _ _ _ => lambda
  | .block _ _ => block
  | .array _ => arrayLiteral

/-- The shape of a statement. -/
def ofStmt : Source.StmtForm → Shape
  | .bind _ _ _ _ => binding
  | .assign _ _ => assignment
  | .expr _ => exprStmt
  | .return _ => returnStmt
  | .ifElse _ _ _ => ifStmt
  | .whileLoop _ _ => whileLoop
  | .forEach _ _ _ => forEach
  | .leave => loopControl
  | .next => loopControl

end Shape

/-- A part of a module that is offered to rules. An expression comes with the type that its
context expects, if that is known. -/
inductive Node where
  | typeDecl (decl : Source.TypeDecl)
  | function (decl : Source.Function)
  | expr (expr : Source.Expr) (expected : Option Ty)
  | stmt (stmt : Source.Stmt)

namespace Node

/-- The place a part comes from. -/
def origin : Node → Origin
  | typeDecl decl => decl.origin
  | function decl => decl.origin
  | expr e _ => e.origin
  | stmt s => s.origin

/-- The shape of a part. -/
def shape : Node → Shape
  | typeDecl decl => .ofTypeBody decl.body
  | function _ => .function
  | expr e _ => .ofExpr e.form
  | stmt s => .ofStmt s.form

/-- The part can be lowered as this shape: it has the shape, or it is a declared type, whose
contents can always be hidden. -/
def fits (node : Node) (shape : Shape) : Bool :=
  match node with
  | typeDecl _ => shape == .abstractDecl || node.shape == shape
  | _ => node.shape == shape

end Node

/-- What a part of a module is lowered to. -/
inductive Product where
  | typeDecl (decl : Typed.TypeDecl)
  | function (decl : Typed.Function)
  | expr (expr : Typed.Expr)
  | stmt (stmt : Typed.Stmt)

namespace Product

/-- The product as a type declaration. -/
def typeDecl? : Product → Option Typed.TypeDecl
  | typeDecl decl => some decl
  | _ => none

/-- The product as a function. -/
def function? : Product → Option Typed.Function
  | function decl => some decl
  | _ => none

/-- The product as an expression. -/
def expr? : Product → Option Typed.Expr
  | expr e => some e
  | _ => none

/-- The product as a statement. -/
def stmt? : Product → Option Typed.Stmt
  | stmt s => some s
  | _ => none

end Product

/-- What a rule does with a part it accepts. -/
inductive Action where
  /-- Lowers the part as one of the shapes of the language. -/
  | lowerAs (shape : Shape)
  /-- Gives a product without lowering anything inside the part. -/
  | give (produce : Node → Except Cause Product)

/-- A rule: the parts it accepts, and what it does with them. -/
structure Rule where
  name : String
  accepts : Node → Bool
  action : Action

/-- The standard rule for a shape accepts the parts of that shape. -/
def Rule.standard (shape : Shape) : Rule where
  name := shape.ruleName
  accepts node := node.shape == shape
  action := .lowerAs shape

/-- The rules of each stage, in order of precedence. -/
structure Engine where
  rules : Stage → List Rule

namespace Engine

/-- The engine without rules. -/
def empty : Engine := ⟨fun _ => []⟩

instance : EmptyCollection Engine := ⟨empty⟩

/-- Adds a rule to a stage, after those that are there. -/
def register (engine : Engine) (stage : Stage) (rule : Rule) : Engine :=
  ⟨fun other => if other = stage then engine.rules other ++ [rule] else engine.rules other⟩

/-- The stage has a rule of that name. -/
def hasRule (engine : Engine) (stage : Stage) (name : String) : Bool :=
  (engine.rules stage).any (·.name == name)

/-- Adds a rule to a stage unless it has one of that name. Says whether it was added. -/
def ensureRegistered (engine : Engine) (stage : Stage) (rule : Rule) : Bool × Engine :=
  if engine.hasRule stage rule.name then (false, engine) else (true, engine.register stage rule)

/-- Adds the standard rules after those that are there. -/
def registerStandard (engine : Engine) : Engine :=
  Shape.all.foldl (fun engine shape => engine.register shape.stage (.standard shape)) engine

/-- The engine with the standard rules. -/
def standard : Engine :=
  registerStandard ∅

/-- The first rule of a stage that accepts a part. -/
def choose? (engine : Engine) (stage : Stage) (node : Node) : Option Rule :=
  (engine.rules stage).find? (·.accepts node)

/-- The names of the rules of a stage, in order of precedence. -/
def names (engine : Engine) (stage : Stage) : List String :=
  (engine.rules stage).map Rule.name

/-- The rules of all stages, for inspection. -/
def describe (engine : Engine) : String :=
  let entries := Stage.all.map fun stage =>
    stage.title ++ ": " ++ Text.quotedList (engine.names stage)
  "\x7b" ++ ", ".intercalate entries ++ "\x7d"

end Engine

end ModuleTyping
