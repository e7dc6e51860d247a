import ModuleTyping.Ty.Text
import ModuleTyping.Typed.Basic

/-!
# Module summaries

The summary of a module lists what it exports, with every type as text, so that other
modules can be checked against it without its source. `Summary.ofModule` makes the
summary of a lowered module.
-/

namespace ModuleTyping.Summary

/-- A parameter or field: its name and the text of its type. -/
structure Param where
  name : String
  ty : String
  deriving DecidableEq, Repr

/-- An exported function. -/
structure Function where
  name : String
  params : List Param := []
  result : String
  exported : Bool := true
  typeParams : List String := []
  deriving DecidableEq, Repr

/-- An exported record, or a type whose contents are hidden. -/
structure TypeDecl where
  name : String
  kind : String := "record"
  fields : List Param := []
  typeParams : List String := []
  deriving DecidableEq, Repr

/-- A variant: its name alone, or its name and the texts of its fields' types. -/
inductive Variant where
  | bare (name : String)
  | detailed (name : String) (fields : List String)
  deriving DecidableEq, Repr

namespace Variant

/-- The name of the variant. -/
def name : Variant → String
  | bare name => name
  | detailed name _ => name

/-- The texts of the types of the variant's fields. -/
def fields : Variant → List String
  | bare _ => []
  | detailed _ fields => fields

/-- The summary of a declared variant. -/
def ofDeclared (variant : String × List Ty) : Variant :=
  match variant with
  | (name, []) => bare name
  | (name, tys) => detailed name (tys.map Ty.text)

end Variant

/-- An exported sum. -/
structure SumDecl where
  name : String
  kind : String := "sum"
  variants : List Variant
  typeParams : List String := []
  deriving DecidableEq, Repr

/-- What a module exports. -/
structure Exports where
  functions : List Function := []
  types : List TypeDecl := []
  sumTypes : List SumDecl := []
  deriving DecidableEq, Repr

end Summary

/-- The summary of a module. -/
structure Summary where
  moduleName : String
  exports : Summary.Exports := {}
  deriving DecidableEq, Repr

namespace Summary

/-- The summary of a function. -/
def ofFunction (decl : Typed.Function) : Function where
  name := decl.name
  params := decl.params.map fun param => { name := param.name, ty := param.ty.text }
  result := decl.result.text
  typeParams := decl.typeParams.map TypeParam.name

/-- The summary of a declared record, or of a type whose contents are hidden. -/
def ofType? (decl : Typed.TypeDecl) : Option TypeDecl :=
  let typeParams := decl.typeParams.map TypeParam.name
  match decl.ty with
  | .record _ fields =>
    some {
      name := decl.name
      kind := "record"
      fields := fields.map fun field => { name := field.1, ty := field.2.text }
      typeParams }
  | .abstract _ => some { name := decl.name, kind := "opaque", typeParams }
  | _ => none

/-- The summary of a declared sum. -/
def ofSum? (decl : Typed.TypeDecl) : Option SumDecl :=
  match decl.ty with
  | .sum _ variants =>
    some {
      name := decl.name
      variants := variants.map Variant.ofDeclared
      typeParams := decl.typeParams.map TypeParam.name }
  | _ => none

/-- The summary of what a lowered module exports. A declaration that only names another
type exports nothing of its own. -/
def ofModule (m : Typed.Module) : Summary :=
  let types := m.types.filter (·.exported)
  { moduleName := m.name
    exports := {
      functions := (m.functions.filter (·.exported)).map ofFunction
      types := types.filterMap ofType?
      sumTypes := types.filterMap ofSum? } }

end Summary

end ModuleTyping
