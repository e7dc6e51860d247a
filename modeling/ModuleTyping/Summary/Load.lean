import ModuleTyping.Inference.Calls
import ModuleTyping.Summary.Basic
import ModuleTyping.Ty.Reader

/-!
# Loading summaries

Loading the summary of a module makes what it exports known as external symbols: first
its records and hidden types, then its sums with their constructors, then its functions,
so that what comes later may refer to what came before. A text that is no type ends the
loading; what was loaded up to there stays.
-/

namespace ModuleTyping

namespace TypeTable

mutual

/-- Puts declared types in the place of names that stand for them. -/
def resolveNames (types : TypeTable) : Ty → Ty
  | .primitive name =>
    if name ∈ primitiveNames then .primitive name
    else (types.lookup? name).getD (.primitive name)
  | .array element => .array (resolveNames types element)
  | .generic base args => .generic (resolveNames types base) (resolveAllNames types args)
  | .function params result =>
    .function (resolveAllNames types params) (resolveNames types result)
  | .ref referent => .ref (resolveNames types referent)
  | .mutRef referent => .mutRef (resolveNames types referent)
  | .map key value => .map (resolveNames types key) (resolveNames types value)
  | .var name constraint => .var name constraint
  | .record name fields => .record name fields
  | .sum name variants => .sum name variants
  | .abstract name => .abstract name
  | .unit => .unit

/-- Puts declared types in the place of names in each of the types. -/
def resolveAllNames (types : TypeTable) : List Ty → List Ty
  | [] => []
  | ty :: rest => resolveNames types ty :: resolveAllNames types rest

end

end TypeTable

namespace Summary

/-- Loading changes what is known, and may end at a text that is no type. -/
abbrev Load := ExceptT Cause (StateM Environment)

/-- Reads the text of a type and resolves the names in it. -/
def loadTy (typeParams : List String) (text : String) : Load Ty := do
  match Ty.read typeParams text.toList with
  | .ok ty => return (← get).types.resolveNames ty
  | .error cause => throw cause

/-- Type parameters without constraints. -/
def openParams (names : List String) : List TypeParam :=
  names.map fun name => { name }

/-- The symbols of a module are exported from it and external to whoever loads it. -/
def registration (moduleName : String) : Registration where
  moduleName := some moduleName
  exported := true
  external := true

/-- Loads a record or a hidden type. Kinds that are neither are passed over. -/
def loadType (reg : Registration) (decl : TypeDecl) : Load Unit := do
  let register (ty : Ty) : Load Unit := do
    let info : TypeInfo := { name := decl.name, ty, typeParams := openParams decl.typeParams }
    modify fun env => { env with types := env.types.register info reg }
  match decl.kind with
  | "record" => do
    let fields ← decl.fields.mapM fun field => do
      return (field.name, ← loadTy decl.typeParams field.ty)
    register (.record decl.name fields)
  | "opaque" => register (.abstract decl.name)
  | _ => pure ()

/-- Loads a sum and its constructors. Other kinds are passed over. -/
def loadSum (reg : Registration) (decl : SumDecl) : Load Unit := do
  if decl.kind = "sum" then
    let variants ← decl.variants.mapM fun variant => do
      return (variant.name, ← variant.fields.mapM (loadTy decl.typeParams))
    let info : TypeInfo := {
      name := decl.name
      ty := .sum decl.name variants
      typeParams := openParams decl.typeParams }
    modify fun env =>
      let (_, constructors, functions) := env.constructors.registerSum env.functions info reg
      { env with types := env.types.register info reg, constructors, functions }

/-- Loads a function. -/
def loadFunction (reg : Registration) (decl : Function) : Load Unit := do
  let params ← decl.params.mapM fun param => loadTy decl.typeParams param.ty
  let result ← loadTy decl.typeParams decl.result
  let sig : Signature := {
    name := decl.name
    params
    result
    typeParams := openParams decl.typeParams }
  modify fun env => { env with functions := env.functions.register sig reg }

/-- Makes what a module exports known. -/
def load (summary : Summary) : Load Unit := do
  let reg := registration summary.moduleName
  summary.exports.types.forM (loadType reg)
  summary.exports.sumTypes.forM (loadSum reg)
  summary.exports.functions.forM (loadFunction reg)

end Summary

end ModuleTyping
