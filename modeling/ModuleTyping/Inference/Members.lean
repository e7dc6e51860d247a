import ModuleTyping.Inference.Calls

/-!
# Members, methods and elements

What `value.member`, `value.method(…)` and `value[…]` yield. Arrays, texts and numbers
have methods of their own; records have the fields of their declaration, with the type
arguments of the value put in.
-/

namespace ModuleTyping

namespace Ty

/-- What a built-in method of arrays yields. -/
def arrayMethod (element : Ty) (method : String) (args : List Ty) (origin : Origin) : Check Ty :=
  match method, args with
  | "length", args | "size", args => do
    Check.argumentCount method args.length 0 origin
    return .i32
  | "is_empty", args => do
    Check.argumentCount method args.length 0 origin
    return .bool
  | "map", [f] => return .array (← f.callResult [element] origin)
  | "filter", [f] => do
    let result ← f.callResult [element] origin
    Check.boolean result "filter predicate" origin
    return .array element
  | "fold", [start, f] => do
    let result ← f.callResult [start, element] origin
    Check.compatible result start "fold accumulator" origin
    return start
  | "map", args | "filter", args => Check.fail (.arity (.method method) 1 args.length) origin
  | "fold", args => Check.fail (.arity (.method method) 2 args.length) origin
  | _, _ => Check.fail (.unknownMethod .array method) origin

/-- What a built-in method of texts yields. -/
def stringMethod (method : String) (args : List Ty) (origin : Origin) : Check Ty :=
  match method, args with
  | "split", [separator] => do
    Check.compatible separator .string (Check.argumentContext "split" 1) origin
    return .array .string
  | "split", args => Check.fail (.arity (.method method) 1 args.length) origin
  | "trim", args | "trim_start", args | "trim_end", args | "upper", args | "lower", args => do
    Check.argumentCount method args.length 0 origin
    return .string
  | "is_empty", args => do
    Check.argumentCount method args.length 0 origin
    return .bool
  | "length", args => do
    Check.argumentCount method args.length 0 origin
    return .i32
  | _, _ => Check.fail (.unknownMethod .string method) origin

/-- The type has the methods of numbers: it is numeric and not a variable. -/
def hasNumberMethods (ty : Ty) : Bool :=
  ty.isNumeric && !ty.isVar

/-- What a built-in method yields. -/
def methodResult (receiver : Ty) (method : String) (args : List Ty) (origin : Origin) : Check Ty :=
  match receiver with
  | .array element => element.arrayMethod method args origin
  | receiver =>
    if receiver.isAuto then pure .auto
    else if receiver.isString then stringMethod method args origin
    else if receiver.hasNumberMethods && method == "sqrt" then do
      Check.argumentCount method args.length 0 origin
      return .f32
    else Check.fail (.unknownMember method receiver) origin

/-- A property that every value of the type has, whatever is declared. -/
def property? (object : Ty) (member : String) : Option Ty :=
  match object with
  | .array _ =>
    if member = "length" ∨ member = "size" then some .i32
    else if member = "is_empty" then some .bool
    else none
  | _ => none

/-- What indexing yields. -/
def elementAt (object position : Ty) (origin : Origin) : Check Ty :=
  match object with
  | .array element => do
    Check.numeric position "array index" origin
    return element
  | .map key value => do
    Check.compatible position key "map key" origin
    return value
  | object =>
    if object.isAuto then pure .auto
    else if object.isString then do
      Check.numeric position "string index" origin
      return .string
    else Check.fail (.cannotIndex object) origin

end Ty

/-- The bindings that give a declaration's type parameters these arguments. -/
def TypeInfo.bindingsOf (info : TypeInfo) (args : List Ty) : Bindings :=
  Dict.ofList ((info.typeParams.map TypeParam.name).zip args)

namespace Environment

/-- The type of a field of a generic application: the declared field with the type
arguments put in. -/
def genericMember? (env : Environment) (object : Ty) (member : String) : Option Ty :=
  match object with
  | .generic base args => do
    let info ← env.types.info? base.name
    let fields ← info.ty.fields? <|> base.fields?
    let field ← fields.lookup member
    return field.subst (info.bindingsOf args)
  | _ => none

/-- The type of a member that is not called. -/
def memberType (env : Environment) (object : Ty) (member : String) (origin : Origin) : Check Ty :=
  if object.isAuto then pure .auto
  else
    match env.genericMember? object member with
    | some ty => pure ty
    | none =>
      match env.types.member? object.name member with
      | some ty => pure ty
      | none =>
        match object.fields? with
        | some fields =>
          match fields.lookup member with
          | some ty => pure ty
          | none => Check.fail (.unknownField member object.text) origin
        | none =>
          match object.property? member with
          | some ty => pure ty
          | none =>
            if object.isString && member == "length" then pure .i32
            else if object.hasNumberMethods && member == "sqrt" then pure .f32
            else Check.fail (.unknownMember member object) origin

end Environment

end ModuleTyping
