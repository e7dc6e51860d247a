import ModuleTyping.Inference.Members
import ModuleTyping.Inference.Operators
import ModuleTyping.Inference.Records
import ModuleTyping.Lowering.Patterns
import ModuleTyping.Lowering.Types
import ModuleTyping.Typed.Matching

/-!
# Lowering expressions and statements

An expression is lowered with the type its context expects, which guides literals,
lambdas and generic calls but is not checked here: whoever expects the type checks it.
Scopes are entered for blocks, arms, lambdas and the bodies of statements, and left again
whatever happens inside.
-/

namespace ModuleTyping

/-- The type of a literal where a type may be expected: a number takes the expected numeric
type, and a fraction the expected type of fractions. -/
def Literal.tyExpecting (value : Literal) (expected : Option Ty) : Ty :=
  match expected, value with
  | some (.primitive name), .int _ => if isNumericName name then .primitive name else value.ty
  | some (.primitive name), .float _ => if isFloatName name then .primitive name else value.ty
  | _, _ => value.ty

/-- The type that iterating over a value gives: the elements of an array, the keys of a map,
and texts from a text. -/
def Ty.iterated? (iterable : Ty) : Option Ty :=
  match iterable with
  | .array element => some element
  | .map key _ => some key
  | iterable =>
    if iterable.isAuto then some .auto
    else if iterable.isString then some .string
    else none

/-- The type an argument of a built-in method is expected to have: the functions that go
over an array are given its element type, and folding the type it starts with. -/
def Ty.methodExpectation (receiver : Ty) (method : String) (position : Nat) (first : Option Ty) :
    Option Ty :=
  match receiver with
  | .array element =>
    match method, position with
    | "map", 0 | "filter", 0 => some (.function [element] .auto)
    | "fold", 1 => first.map fun start => .function [start, element] start
    | _, _ => none
  | _ => none

/-- The value a check passes with, if it passes. -/
def Check.result? {α : Type} (x : Check α) : Option α :=
  match (x []).1 with
  | .ok value => some value
  | .error _ => none

/-- The words for truth values. -/
def boolOfWord? : String → Option Bool
  | "true" => some true
  | "false" => some false
  | _ => none

/-- The name that an expression consists of, when it is not a local one. -/
def Source.Expr.globalName? (e : Source.Expr) (env : Environment) : Option String :=
  match e.form with
  | .var name => if env.scopes.contains name then none else some name
  | _ => none

namespace Lower

/-- What a resolved call of a name calls. -/
def calleeOf (name : String) (origin : Origin) (target : CallTarget) : Lower Typed.Callee := do
  match target with
  | .function canonical => return .function canonical
  | .builtin builtin => return .builtin builtin
  | .value =>
    let ty := ((← env).scopes.lookup? name).getD .auto
    return .value ⟨.var name, ty, origin⟩

/-- Lowers the call of a name with arguments that are lowered already. -/
def callNamed (name : String) (args : List Typed.Expr) (expected : Option Ty) (origin : Origin) :
    Lower Typed.Expr := do
  let env ← env
  let call ← check (env.callByName name (args.map Typed.Expr.ty) expected origin)
  let callee ← calleeOf name origin call.target
  return ⟨.call callee args, call.result, origin⟩

/-- Lowers a name: a local name, a constructor without fields, which is a call, a function
as a value, a truth value, or a function for input or output. -/
def lowerName (name : String) (expected : Option Ty) (origin : Origin) : Lower Typed.Expr := do
  let env ← env
  match env.scopes.lookup? name with
  | some ty => return ⟨.var name, ty, origin⟩
  | none =>
    if env.constructors.isNullary name then callNamed name [] expected origin
    else
      match env.functions.entry? name with
      | some entry => return ⟨.functionRef entry.name, entry.value.toTy, origin⟩
      | none =>
        match boolOfWord? name with
        | some value => return ⟨.literal (.bool value), .bool, origin⟩
        | none =>
          let ty ← check (env.nameType name origin)
          return ⟨.var name, ty, origin⟩

/-- The function that a member of an expression refers to, when the expression is the name
of a module: neither a local name nor a function. -/
def moduleMember? (object : Source.Expr) (member : String) :
    Lower (Option (String × Entry Signature)) := do
  match object.form with
  | .var name =>
    let env ← env
    if env.scopes.contains name || env.functions.contains name then return none
    else return (env.functions.member? name member).map fun entry => (name, entry)
  | _ => return none

/-- The parameters of a lambda. A type that is not written is the expected one, and is left
undetermined when none is expected. -/
def lambdaParams (origin : Origin) :
    List Source.LambdaParam → List Ty → Lower (List Typed.Param)
  | [], _ => return []
  | param :: params, expected => do
    let ty ←
      match param.ty with
      | some ty => resolve origin ty
      | none => pure (expected.head?.getD .auto)
    let rest ← lambdaParams origin params expected.tail
    return { name := param.name, ty } :: rest

/-- Gives parameters their types in the innermost scope. -/
def bindParams : List Typed.Param → Lower Unit
  | [] => pure ()
  | param :: rest => do
    bind param.name param.ty
    bindParams rest

/-- Wants the elements of an array to be usable as its first. They are numbered from
`number`. -/
def checkElements (element : Ty) (origin : Origin) : Nat → List Typed.Expr → Check Unit
  | _, [] => pure ()
  | number, e :: rest => do
    Check.compatible e.ty element s!"array element {number}" (e.origin <|> origin)
    checkElements element origin (number + 1) rest

mutual

/-- Lowers an expression whose context may expect a type. -/
def lowerExpr : Source.Expr → Option Ty → Lower Typed.Expr
  | ⟨form, origin⟩, expected =>
    dispatch .expression (.expr ⟨form, origin⟩ expected)
      (fun _ => lowerForm form expected origin) Product.expr?

/-- Lowers an expression of a given form. -/
def lowerForm : Source.ExprForm → Option Ty → Origin → Lower Typed.Expr
  | .literal value, expected, origin =>
    return ⟨.literal value, value.tyExpecting expected, origin⟩
  | .var name, expected, origin => lowerName name expected origin
  | .binary op lhs rhs, _, origin => do
    let lhs ← lowerExpr lhs none
    let rhs ← lowerExpr rhs (some lhs.ty)
    let ty ← check (op.result lhs.ty rhs.ty origin)
    return ⟨.binary op lhs rhs, ty, origin⟩
  | .unary op operand, expected, origin => do
    let operand ← lowerExpr operand expected
    let ty ← check (op.result operand.ty origin)
    return ⟨.unary op operand, ty, origin⟩
  | .call ⟨.member object method, _⟩ args, expected, origin => do
    match ← moduleMember? object method with
    | some (container, entry) =>
      let args ← lowerArgs args entry.value.params
      let call ← check (Environment.callMember entry container method
        (args.map Typed.Expr.ty) expected origin)
      let callee ← calleeOf method origin call.target
      return ⟨.call callee args, call.result, origin⟩
    | none =>
      let receiver ← lowerExpr object none
      match ((← env).memberType receiver.ty method origin).result? with
      | some (.function params result) =>
        let field : Ty := .function params result
        let args ← lowerArgs args params
        let ty ← check (field.callResult (args.map Typed.Expr.ty) origin)
        return ⟨.call (.value ⟨.member receiver method, field, origin⟩) args, ty, origin⟩
      | _ =>
        let args ← lowerMethodArgs args receiver.ty method 0 none
        let ty ← check (receiver.ty.methodResult method (args.map Typed.Expr.ty) origin)
        return ⟨.call (.method receiver method) args, ty, origin⟩
  | .call callee args, expected, origin => do
    match callee.globalName? (← env) with
    | some name =>
      let params := (((← env).functions.signature? name).map Signature.params).getD []
      let args ← lowerArgs args params
      callNamed name args expected origin
    | none =>
      let callee ← lowerExpr callee none
      let args ← lowerArgs args callee.ty.params
      let ty ← check (callee.ty.callResult (args.map Typed.Expr.ty) origin)
      return ⟨.call (.value callee) args, ty, origin⟩
  | .member object name, _, origin => do
    match ← moduleMember? object name with
    | some (_, entry) => return ⟨.functionRef entry.name, entry.value.toTy, origin⟩
    | none =>
      let object ← lowerExpr object none
      let ty ← check ((← env).memberType object.ty name origin)
      return ⟨.member object name, ty, origin⟩
  | .index object position, _, origin => do
    let object ← lowerExpr object none
    let position ← lowerExpr position none
    let ty ← check (object.ty.elementAt position.ty origin)
    return ⟨.index object position, ty, origin⟩
  | .record name fields, _, origin => do
    let fields ← lowerRecordFields name fields
    let given := fields.map fun field => (field.1, field.2.ty)
    let ty ← check ((← env).recordType name given origin)
    return ⟨.record ty.name fields, ty, origin⟩
  | .ifElse condition thenBranch elseBranch, expected, origin => do
    let condition ← lowerExpr condition (some .bool)
    check (Check.boolean condition.ty "if condition" (condition.origin <|> origin))
    let thenBranch ← lowerExpr thenBranch expected
    match elseBranch with
    | some elseBranch =>
      let elseBranch ← lowerExpr elseBranch (some thenBranch.ty)
      check (Check.compatible elseBranch.ty thenBranch.ty "else branch"
        (elseBranch.origin <|> origin))
      return ⟨.ifElse condition thenBranch (some elseBranch), thenBranch.ty, origin⟩
    | none => return ⟨.ifElse condition thenBranch none, .void, origin⟩
  | .matching scrutinee arms, expected, origin => do
    let scrutinee ← lowerExpr scrutinee none
    let arms ← lowerArms arms scrutinee.ty expected
    let coverage := (← read).config.checkExhaustiveness
    let ty ← check (Typed.matchType coverage (← env).types scrutinee.ty arms origin)
    return ⟨.matching scrutinee arms, ty, origin⟩
  | .lambda params result body, expected, origin => do
    let (expectedParams, expectedResult) :=
      match expected with
      | some (.function params result) => (params, some result)
      | _ => ([], none)
    let params ← lambdaParams origin params expectedParams
    let declared ← resolve? origin result
    let wanted := declared <|> expectedResult.filter (!·.isAuto)
    let body ← inScope do
      bindParams params
      withResult (wanted.getD .auto) (lowerExpr body wanted)
    if let some result := declared then
      check (Check.compatible body.ty result "lambda return value" (body.origin <|> origin))
    let ty := .function (params.map Typed.Param.ty) (declared.getD body.ty)
    return ⟨.lambda params body, ty, origin⟩
  | .block stmts result, expected, origin => inScope do
    let stmts ← lowerStmts stmts
    match result with
    | some result =>
      let result ← lowerExpr result expected
      return ⟨.block stmts (some result), result.ty, origin⟩
    | none => return ⟨.block stmts none, .void, origin⟩
  | .array elements, expected, origin => do
    let elements ← lowerElements elements (expected.bind Ty.element?)
    match elements with
    | [] =>
      let ty :=
        match expected with
        | some (.array element) => .array element
        | _ => .array .auto
      return ⟨.array [], ty, origin⟩
    | first :: rest =>
      check (checkElements first.ty origin 2 rest)
      return ⟨.array (first :: rest), .array first.ty, origin⟩

/-- Lowers arguments where these types are expected, as far as they reach. -/
def lowerArgs : List Source.Expr → List Ty → Lower (List Typed.Expr)
  | [], _ => return []
  | arg :: args, expected => do
    let arg ← lowerExpr arg expected.head?
    return arg :: (← lowerArgs args expected.tail)

/-- Lowers the arguments of a built-in method from a position on; `first` is the type of
the first argument, once it is known. -/
def lowerMethodArgs :
    List Source.Expr → Ty → String → Nat → Option Ty → Lower (List Typed.Expr)
  | [], _, _, _, _ => return []
  | arg :: args, receiver, method, position, first => do
    let arg ← lowerExpr arg (receiver.methodExpectation method position first)
    return arg :: (← lowerMethodArgs args receiver method (position + 1) (first <|> some arg.ty))

/-- Lowers the elements of an array. The first is expected to have the given type, the
others that of the first. -/
def lowerElements : List Source.Expr → Option Ty → Lower (List Typed.Expr)
  | [], _ => return []
  | element :: elements, expected => do
    let element ← lowerExpr element expected
    return element :: (← lowerMoreElements elements element.ty)

/-- Lowers the elements of an array after the first. -/
def lowerMoreElements : List Source.Expr → Ty → Lower (List Typed.Expr)
  | [], _ => return []
  | element :: elements, expected => do
    let element ← lowerExpr element (some expected)
    return element :: (← lowerMoreElements elements expected)

/-- Lowers the fields of a record literal, each expected to have its declared type. -/
def lowerRecordFields :
    Option String → List (String × Source.Expr) → Lower (List (String × Typed.Expr))
  | _, [] => return []
  | typeName, (name, value) :: fields => do
    let types := (← env).types
    let value ← lowerExpr value (typeName.bind (types.member? · name))
    return (name, value) :: (← lowerRecordFields typeName fields)

/-- Lowers the arms of a match on values of type `scrutinee`, each in its own scope. -/
def lowerArms : List Source.Arm → Ty → Option Ty → Lower (List Typed.Arm)
  | [], _, _ => return []
  | ⟨pattern, body, origin⟩ :: arms, scrutinee, expected => do
    let arm ← inScope do
      let pattern ← lowerPattern origin pattern scrutinee
      let body ← lowerExpr body expected
      return ⟨pattern, body⟩
    return arm :: (← lowerArms arms scrutinee expected)

/-- Lowers a statement. -/
def lowerStmt : Source.Stmt → Lower Typed.Stmt
  | ⟨form, origin⟩ =>
    dispatch .statement (.stmt ⟨form, origin⟩) (fun _ => lowerStmtForm form origin) Product.stmt?

/-- Lowers a statement of a given form. -/
def lowerStmtForm : Source.StmtForm → Origin → Lower Typed.Stmt
  | .bind name mutable written value, origin => do
    let declared ← resolve? origin written
    let value ← lowerExpr value declared
    if let some declared := declared then
      check (Check.compatible value.ty declared s!"let binding {Cause.quote name}"
        (value.origin <|> origin))
    let ty := declared.getD value.ty
    bind name ty
    return ⟨.bind name mutable ty value, origin⟩
  | .assign target value, origin => do
    let env ← env
    match env.scopes.lookup? target with
    | none => fail (.unknownIdentifier target env.scopes.visible) origin
    | some ty =>
      let value ← lowerExpr value (some ty)
      check (Check.compatible value.ty ty s!"assignment to {Cause.quote target}"
        (value.origin <|> origin))
      return ⟨.assign target value, origin⟩
  | .expr value, origin => return ⟨.expr (← lowerExpr value none), origin⟩
  | .return none, origin => return ⟨.return none, origin⟩
  | .return (some value), origin => do
    let expected := (← get).results.head?
    let value ← lowerExpr value expected
    if let some expected := expected then
      check (Check.compatible value.ty expected "return value" (value.origin <|> origin))
    return ⟨.return (some value), origin⟩
  | .ifElse condition thenBody elseBody, origin => do
    let condition ← lowerExpr condition (some .bool)
    check (Check.boolean condition.ty "if condition" (condition.origin <|> origin))
    let thenBody ← inScope (lowerStmts thenBody)
    let elseBody ← inScope (lowerStmts elseBody)
    return ⟨.ifElse condition thenBody elseBody, origin⟩
  | .whileLoop condition body, origin => do
    let condition ← lowerExpr condition (some .bool)
    check (Check.boolean condition.ty "while condition" (condition.origin <|> origin))
    let body ← inScope (lowerStmts body)
    return ⟨.whileLoop condition body, origin⟩
  | .forEach name iterable body, origin => do
    let iterable ← lowerExpr iterable none
    match iterable.ty.iterated? with
    | none => fail (.cannotIterate iterable.ty) (iterable.origin <|> origin)
    | some ty =>
      let body ← inScope do
        bind name ty
        lowerStmts body
      return ⟨.forEach name ty iterable body, origin⟩
  | .leave, origin => return ⟨.leave, origin⟩
  | .next, origin => return ⟨.next, origin⟩

/-- Lowers statements in order. -/
def lowerStmts : List Source.Stmt → Lower (List Typed.Stmt)
  | [] => return []
  | stmt :: stmts => do
    let stmt ← lowerStmt stmt
    return stmt :: (← lowerStmts stmts)

end

end Lower

end ModuleTyping
