import ModuleTyping.Json.Number
import ModuleTyping.Json.Reader

/-!
# Taking JSON values apart

A record of named parts can be written as an object, where members with other names are
passed over and no part may stand twice, or as an array of the parts in the order of
their names, where parts at the end may be left out. `parts?` reads both; `required` and
`optional` then read one part each.

A value that is kept whole before it is known what it stands for has to be sound all
through: `isSound` says that its texts can be read and its numbers are not too large.
-/

namespace ModuleTyping.Json

/-- Reads one kind of thing out of a JSON value. -/
abbrev Decoder (α : Type) := Json → Option α

/-- A text without halves of surrogate pairs. -/
def asText : Decoder String
  | text value => value.toText?
  | _ => none

/-- A truth value. -/
def asBool : Decoder Bool
  | bool value => some value
  | _ => none

/-- An array, each element of which is read the same way. -/
def asList {α : Type} (element : Decoder α) : Decoder (List α)
  | array elements => elements.mapM element
  | _ => none

/-- The values of the members that have a name. -/
def valuesOf (name : String) (members : List (String × Json)) : List Json :=
  (members.filter (·.1 = name)).map Prod.snd

/-- The parts of a record, with their names. -/
def parts? (names : List String) : Decoder (List (String × Json))
  | array elements => if elements.length ≤ names.length then some (names.zip elements) else none
  | object members => do
    let members ← members.mapM fun (name, value) => name.toText?.map (·, value)
    if names.all fun name => (valuesOf name members).length ≤ 1 then
      some (members.filter (·.1 ∈ names))
    else none
  | _ => none

/-- A part that has to be there. -/
def required {α : Type} (parts : List (String × Json)) (name : String) (read : Decoder α) :
    Option α :=
  (parts.lookup name).bind read

/-- A part that has a value of its own when it is left out. -/
def optional {α : Type} (parts : List (String × Json)) (name : String) (absent : α)
    (read : Decoder α) : Option α :=
  match parts.lookup name with
  | none => some absent
  | some value => read value

mutual

/-- All texts in the value can be read, and all numbers in it are finite. -/
def isSound : Json → Bool
  | null => true
  | bool _ => true
  | number digits => isFinite digits
  | text value => value.toText?.isSome
  | array elements => allSound elements
  | object members => membersSound members

/-- All of the values are sound. -/
def allSound : List Json → Bool
  | [] => true
  | value :: rest => isSound value && allSound rest

/-- All of the members are sound, their names too. -/
def membersSound : List (JsonText × Json) → Bool
  | [] => true
  | (name, value) :: rest => name.toText?.isSome && isSound value && membersSound rest

end

end ModuleTyping.Json
