import ModuleTyping.Constructors
import ModuleTyping.Instantiation
import ModuleTyping.Scopes
import ModuleTyping.SymbolTable.Types

/-!
# Names and calls

What a name refers to and what a call yields. A local name hides a function of the same
name, and a function for input or output hides a declared function when it is called.
-/

namespace ModuleTyping

/-- What is known while expressions are given types: local names, types, functions, and
constructors. -/
structure Environment where
  scopes : Scopes := ∅
  types : TypeTable := .primitives
  functions : FunctionTable := ∅
  constructors : ConstructorTable := ∅

instance : Inhabited Environment := ⟨{}⟩

/-- What a call turns out to call. -/
inductive CallTarget where
  /-- A function, by its registered name. -/
  | function (name : String)
  /-- A function for input or output, or for making text. -/
  | builtin (name : String)
  /-- A local value. -/
  | value

/-- A call, resolved. -/
structure ResolvedCall where
  target : CallTarget
  result : Ty

/-- The context of an argument of a call through a value, counted from one. -/
def lambdaContext (number : Nat) : String :=
  s!"lambda argument {number}"

/-- What calling a value of type `callee` yields. -/
def Ty.callResult (callee : Ty) (args : List Ty) (origin : Origin) : Check Ty :=
  match callee with
  | .function params result => do
    unless args.length = params.length do
      Check.fail (.arity .lambda params.length args.length) origin
    Check.arguments lambdaContext origin 1 args params
    return result
  | callee => if callee.isAuto then pure .auto else Check.fail (.cannotCall callee) origin

namespace Environment

/-- The fault of a name that refers to nothing. -/
def unknownName {α : Type} (env : Environment) (name : String) (origin : Origin) : Check α :=
  Check.fail (.unknownIdentifier name env.scopes.visible) origin

/-- The type of a name: of a local name, of a function, of what a function for input or
output yields, or of a truth value. -/
def nameType (env : Environment) (name : String) (origin : Origin) : Check Ty :=
  match env.scopes.lookup? name with
  | some ty => pure ty
  | none =>
    match env.functions.signature? name with
    | some sig => pure sig.toTy
    | none =>
      match builtinResult? name with
      | some ty => pure ty
      | none => if name = "true" ∨ name = "false" then pure .bool else env.unknownName name origin

/-- A call by name, where the context may expect a type. -/
def callByName (env : Environment) (name : String) (args : List Ty) (expected : Option Ty)
    (origin : Origin) : Check ResolvedCall :=
  match env.scopes.lookup? name with
  | some callee => do
    let result ← callee.callResult args origin
    return { target := .value, result }
  | none =>
    match builtinResult? name with
    | some result => pure { target := .builtin name, result }
    | none =>
      match env.functions.entry? name with
      | some entry => do
        let inst ← Instantiation.solve entry.value args name expected origin
        return { target := .function entry.name, result := inst.result }
      | none => env.unknownName name origin

/-- A call of a function of a module. -/
def callMember (entry : Entry Signature) (container member : String) (args : List Ty)
    (expected : Option Ty) (origin : Origin) : Check ResolvedCall := do
  let name := ModulePath.memberKey container member
  let inst ← Instantiation.solve entry.value args name expected origin
  return { target := .function entry.name, result := inst.result }

end Environment

end ModuleTyping
