import ModuleTyping.Json.Decode
import ModuleTyping.Json.Writer
import ModuleTyping.Summary.Basic

/-!
# Summaries as JSON

A summary is kept between compilations as a JSON text. `Summary.toJson` writes every part
except empty lists of type parameters; `Summary.ofJson?` fills in the parts that are left
out and have a usual value.
-/

namespace ModuleTyping.Summary

namespace Param

/-- A parameter as an object. -/
def encode (param : Param) : Json :=
  .object [
    (.ofText "name", .text (.ofText param.name)),
    (.ofText "type", .text (.ofText param.ty))]

/-- Reads a parameter. -/
def decode : Json.Decoder Param := fun value => do
  let parts ← value.parts? ["name", "type"]
  return {
    name := ← Json.required parts "name" Json.asText
    ty := ← Json.required parts "type" Json.asText }

end Param

/-- An array of texts. -/
def encodeTexts (texts : List String) : Json :=
  .array (texts.map fun text => .text (.ofText text))

/-- The member for type parameters, which is left out when there are none. -/
def encodeTypeParams (typeParams : List String) : List (JsonText × Json) :=
  if typeParams.isEmpty then [] else [(.ofText "type_params", encodeTexts typeParams)]

/-- Reads the type parameters of a declaration. -/
def decodeTypeParams (parts : List (String × Json)) : Option (List String) :=
  Json.optional parts "type_params" [] (Json.asList Json.asText)

namespace Function

/-- A function as an object. -/
def encode (decl : Function) : Json :=
  .object <| [
    (.ofText "name", .text (.ofText decl.name)),
    (.ofText "params", .array (decl.params.map Param.encode)),
    (.ofText "return_type", .text (.ofText decl.result)),
    (.ofText "is_exported", .bool decl.exported)] ++ encodeTypeParams decl.typeParams

/-- Reads a function. It is exported unless it says otherwise. -/
def decode : Json.Decoder Function := fun value => do
  let parts ← value.parts? ["name", "params", "return_type", "is_exported", "type_params"]
  return {
    name := ← Json.required parts "name" Json.asText
    params := ← Json.optional parts "params" [] (Json.asList Param.decode)
    result := ← Json.required parts "return_type" Json.asText
    exported := ← Json.optional parts "is_exported" true Json.asBool
    typeParams := ← decodeTypeParams parts }

end Function

namespace TypeDecl

/-- A record or hidden type as an object. -/
def encode (decl : TypeDecl) : Json :=
  .object <| [
    (.ofText "name", .text (.ofText decl.name)),
    (.ofText "kind", .text (.ofText decl.kind)),
    (.ofText "fields", .array (decl.fields.map Param.encode))] ++ encodeTypeParams decl.typeParams

/-- Reads a record or hidden type. It is a record unless it says otherwise. -/
def decode : Json.Decoder TypeDecl := fun value => do
  let parts ← value.parts? ["name", "kind", "fields", "type_params"]
  return {
    name := ← Json.required parts "name" Json.asText
    kind := ← Json.optional parts "kind" "record" Json.asText
    fields := ← Json.optional parts "fields" [] (Json.asList Param.decode)
    typeParams := ← decodeTypeParams parts }

end TypeDecl

namespace Variant

/-- How deep a variant may be nested. -/
def depthLimit : Nat := 122

/-- A variant as a text, or as an object with its fields. -/
def encode : Variant → Json
  | bare name => .text (.ofText name)
  | detailed name fields =>
    .object [(.ofText "name", .text (.ofText name)), (.ofText "fields", encodeTexts fields)]

/-- Reads a variant, which has no third form as an array. Since it has two forms, the whole
value has to be sound, also in the parts that are passed over. -/
def decode : Json.Decoder Variant := fun value =>
  if value.isSound && value.depth ≤ depthLimit then
    match value with
    | .text name => (JsonText.toText? name).map bare
    | .object members => do
      let parts ← (Json.object members).parts? ["name", "fields"]
      return detailed (← Json.required parts "name" Json.asText)
        (← Json.required parts "fields" (Json.asList Json.asText))
    | _ => none
  else none

end Variant

namespace SumDecl

/-- A sum as an object. -/
def encode (decl : SumDecl) : Json :=
  .object <| [
    (.ofText "name", .text (.ofText decl.name)),
    (.ofText "kind", .text (.ofText decl.kind)),
    (.ofText "variants", .array (decl.variants.map Variant.encode))] ++
      encodeTypeParams decl.typeParams

/-- Reads a sum. -/
def decode : Json.Decoder SumDecl := fun value => do
  let parts ← value.parts? ["name", "kind", "variants", "type_params"]
  return {
    name := ← Json.required parts "name" Json.asText
    kind := ← Json.optional parts "kind" "sum" Json.asText
    variants := ← Json.required parts "variants" (Json.asList Variant.decode)
    typeParams := ← decodeTypeParams parts }

end SumDecl

namespace Exports

/-- What a module exports, as an object. -/
def encode (exports : Exports) : Json :=
  .object [
    (.ofText "functions", .array (exports.functions.map Function.encode)),
    (.ofText "types", .array (exports.types.map TypeDecl.encode)),
    (.ofText "sum_types", .array (exports.sumTypes.map SumDecl.encode))]

/-- Reads what a module exports. What is left out is empty. -/
def decode : Json.Decoder Exports := fun value => do
  let parts ← value.parts? ["functions", "types", "sum_types"]
  return {
    functions := ← Json.optional parts "functions" [] (Json.asList Function.decode)
    types := ← Json.optional parts "types" [] (Json.asList TypeDecl.decode)
    sumTypes := ← Json.optional parts "sum_types" [] (Json.asList SumDecl.decode) }

end Exports

/-- A summary as an object. -/
def encode (summary : Summary) : Json :=
  .object [
    (.ofText "module_name", .text (.ofText summary.moduleName)),
    (.ofText "exports", summary.exports.encode)]

/-- Reads a summary. A module that does not say so exports nothing. -/
def decode : Json.Decoder Summary := fun value => do
  let parts ← value.parts? ["module_name", "exports"]
  return {
    moduleName := ← Json.required parts "module_name" Json.asText
    exports := ← Json.optional parts "exports" {} Exports.decode }

/-- The JSON text of a summary. -/
def toJson (summary : Summary) : String :=
  summary.encode.toText

/-- The summary that a JSON text writes. -/
def ofJson? (text : String) : Option Summary :=
  (Json.read? text.toList).bind decode

/-- What is said of a text that writes no summary. -/
def unreadable : String := "Failed to parse module metadata"

end ModuleTyping.Summary
