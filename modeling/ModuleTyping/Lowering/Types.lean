import ModuleTyping.Lowering.Basic

/-!
# Written types

A written type is resolved to a type: names of type parameters in scope become variables,
and declared names become what they were declared as. Type arguments must be as many as
the declaration has parameters and must meet their constraints.
-/

namespace ModuleTyping.Lower

/-- The type a name stands for where no type parameter hides it. -/
def resolveName (name : String) (origin : Origin) : Lower Ty := do
  match name with
  | "auto" => return .auto
  | "unit" => return .unit
  | name =>
    match (← env).types.lookup? name with
    | some ty => return ty
    | none => fail (.unknownType name) origin

/-- A declared type applied to arguments. A map needs no declaration. -/
def applyType (name : String) (args : List Ty) (origin : Origin) : Lower Ty := do
  match (← env).types.info? name with
  | none =>
    match name, args with
    | "Map", [key, value] => return .map key value
    | _, _ => fail (.unknownType name) origin
  | some info =>
    if !info.typeParams.isEmpty && info.typeParams.length != args.length then
      fail (.arity (.type name) info.typeParams.length args.length) origin
    else
      ofExcept (TypeParam.validate name info.typeParams args) origin
      return .generic info.ty args

mutual

/-- The type that a written type stands for. -/
def resolve (origin : Origin) : WrittenType → Lower Ty
  | .named name => do
    match (← get).typeParams.find? (·.name == name) with
    | some param => return param.toVar
    | none => resolveName name origin
  | .generic name args => do
    applyType name (← resolveAll origin args) origin
  | .array element => return .array (← resolve origin element)
  | .function params result => do
    let params ← resolveAll origin params
    return .function params (← resolve origin result)
  | .ref referent => return .ref (← resolve origin referent)
  | .mutRef referent => return .mutRef (← resolve origin referent)
  | .map key value => do
    let key ← resolve origin key
    return .map key (← resolve origin value)
  | .unit => return .unit

/-- The types that written types stand for. -/
def resolveAll (origin : Origin) : List WrittenType → Lower (List Ty)
  | [] => return []
  | ty :: rest => do
    let ty ← resolve origin ty
    return ty :: (← resolveAll origin rest)

end

/-- The type that a written type stands for, if one is written. -/
def resolve? (origin : Origin) (ty : Option WrittenType) : Lower (Option Ty) := do
  match ty with
  | some ty => return some (← resolve origin ty)
  | none => return none

end ModuleTyping.Lower
