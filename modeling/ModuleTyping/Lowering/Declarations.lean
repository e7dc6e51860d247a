import ModuleTyping.Lowering.Expressions
import ModuleTyping.Typed.Purity

/-!
# Lowering declarations

A declared type is registered under its name with its parameters, and a sum registers its
constructors with it. A function's signature is resolved with its type parameters in
scope, and its body is lowered in a scope of its own, where a value is checked against the
result type unless one of the two is empty.
-/

namespace ModuleTyping

/-- A function with this result yields nothing. -/
def Ty.isVoid : Ty → Bool
  | .unit => true
  | ty => ty.name == "void"

namespace Lower

/-- The type parameters of a declaration, with their constraints checked. -/
def declaredParams (params : List TypeParam) (origin : Origin) : Lower (List TypeParam) :=
  ofExcept (TypeParam.normalize params) origin

/-- Resolves the types of fields in order. -/
def resolveFields (origin : Origin) :
    List (String × WrittenType) → Lower (List (String × Ty))
  | [] => return []
  | (name, ty) :: rest => do
    let ty ← resolve origin ty
    return (name, ty) :: (← resolveFields origin rest)

/-- Resolves the types of the fields of variants in order. -/
def resolveVariants (origin : Origin) :
    List (String × List WrittenType) → Lower (List (String × List Ty))
  | [] => return []
  | (name, tys) :: rest => do
    let tys ← resolveAll origin tys
    return (name, tys) :: (← resolveVariants origin rest)

/-- What the body of a declaration stands for. -/
def resolveBody (name : String) (origin : Origin) : Source.TypeBody → Lower Ty
  | .record fields => return .record name (← resolveFields origin fields)
  | .sum variants => return .sum name (← resolveVariants origin variants)
  | .abstract => return .abstract name
  | .synonym target => resolve origin target

/-- Registers a declared type, in place of what stood for it before. -/
def registerType (decl : Source.TypeDecl) (ty : Ty) (typeParams : List TypeParam) :
    Lower Typed.TypeDecl := do
  let reg ← registration decl.exported false decl.origin
  let info : TypeInfo := { name := decl.name, ty, typeParams }
  modifyEnv fun env => { env with types := env.types.register info reg }
  return { name := decl.name, ty, typeParams, exported := decl.exported, origin := decl.origin }

/-- Registers the constructors of a declared sum. -/
def registerConstructors (decl : Source.TypeDecl) (ty : Ty) (typeParams : List TypeParam) :
    Lower Unit := do
  let reg ← registration decl.exported false decl.origin
  let info : TypeInfo := { name := decl.name, ty, typeParams }
  modifyEnv fun env =>
    let (_, constructors, functions) := env.constructors.registerSum env.functions info reg
    { env with constructors, functions }

/-- Lowers a declared type as a shape, which hides its contents if it is that shape. -/
def lowerTypeAs (decl : Source.TypeDecl) (shape : Shape) : Lower Typed.TypeDecl := do
  let typeParams ← declaredParams decl.typeParams decl.origin
  let body := if shape = .abstractDecl then .abstract else decl.body
  let ty ← withTypeParams typeParams (resolveBody decl.name decl.origin body)
  let lowered ← registerType decl ty typeParams
  if let .sum _ := body then
    registerConstructors decl ty typeParams
  return lowered

/-- Lowers a declared type. -/
def lowerTypeDecl (decl : Source.TypeDecl) : Lower Typed.TypeDecl :=
  dispatch .typeDecl (.typeDecl decl) (lowerTypeAs decl) Product.typeDecl?

/-- The signature of a function. -/
def signatureOf (decl : Source.Function) : Lower Signature := do
  let typeParams ← declaredParams decl.typeParams decl.origin
  withTypeParams typeParams do
    let params ← resolveAll decl.origin (decl.params.map Source.Param.ty)
    let result ← resolve? decl.origin decl.result
    return { name := decl.name, params, result := result.getD .void, typeParams }

/-- Registers the signature of a function. -/
def declareFunction (decl : Source.Function) : Lower Signature := do
  let sig ← signatureOf decl
  let reg ← registration decl.exported decl.isExternal decl.origin
  modifyEnv fun env => { env with functions := env.functions.register sig reg }
  return sig

/-- Lowers the body of a function with this signature and these parameters. -/
def lowerBody (decl : Source.Function) (sig : Signature) (params : List Typed.Param)
    (body : Source.Expr) : Lower Typed.Expr :=
  withTypeParams sig.typeParams <| inScope do
    bindParams params
    withResult sig.result do
      let body ← lowerExpr body (some sig.result)
      unless sig.result.isVoid || body.ty.isVoid do
        check (Check.compatible body.ty sig.result s!"return value of {Cause.quote decl.name}"
          (body.origin <|> decl.origin))
      return body

/-- Lowers a function and works out its effects, if that is asked for. -/
def lowerFunctionForm (decl : Source.Function) : Lower Typed.Function := do
  let sig ← signatureOf decl
  let params := (decl.params.zip sig.params).map fun (param, ty) =>
    ({ name := param.name, ty } : Typed.Param)
  let body ←
    match decl.body with
    | none => pure none
    | some body => some <$> lowerBody decl sig params body
  let effects ←
    if (← read).config.analyzeEffects then do
      let effects := Typed.effectsOf body sig.result
      modifyEnv fun env =>
        { env with functions := (env.functions.replaceEffects decl.name effects).2 }
      pure effects
    else pure []
  return {
    name := decl.name
    typeParams := sig.typeParams
    params
    result := sig.result
    body
    exported := decl.exported
    external := decl.isExternal
    effects
    origin := decl.origin }

/-- Lowers a function. -/
def lowerFunction (decl : Source.Function) : Lower Typed.Function :=
  dispatch .function (.function decl) (fun _ => lowerFunctionForm decl) Product.function?

end Lower

end ModuleTyping
