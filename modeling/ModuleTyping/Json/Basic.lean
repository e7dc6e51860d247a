/-!
# JSON values

A value as it stands in a JSON text. A text inside it is held as the code units that its
escapes and characters spell, since an escape can spell half of a surrogate pair, which no
text can hold; `JsonText.toText?` reads it as a text where that is possible. A number is
held by its digits. An object keeps its members in order, and keeps repeated ones apart.
-/

namespace ModuleTyping

/-- A text in a JSON value: characters by their code points, escaped ones by the code units
that the escapes spell. -/
abbrev JsonText := List Nat

namespace JsonText

/-- The code unit is the first half of a surrogate pair. -/
def isHigh (unit : Nat) : Bool := 0xD800 ≤ unit && unit < 0xDC00

/-- The code unit is the second half of a surrogate pair. -/
def isLow (unit : Nat) : Bool := 0xDC00 ≤ unit && unit < 0xE000

/-- The characters that the units spell, if no half of a pair stands alone. -/
def toChars? : JsonText → Option (List Char)
  | [] => some []
  | unit :: rest =>
    if isHigh unit then
      match rest with
      | low :: rest =>
        if isLow low then
          let c := Char.ofNat (0x10000 + (unit - 0xD800) * 0x400 + (low - 0xDC00))
          (toChars? rest).map (c :: ·)
        else none
      | [] => none
    else if isLow unit then none
    else (toChars? rest).map (Char.ofNat unit :: ·)

/-- The text that the units spell, if no half of a pair stands alone. -/
def toText? (text : JsonText) : Option String :=
  (toChars? text).map String.ofList

/-- The units of a text, all of whose characters stand for themselves. -/
def ofText (text : String) : JsonText :=
  text.toList.map Char.toNat

end JsonText

/-- A JSON value. -/
inductive Json where
  | null
  | bool (value : Bool)
  | number (digits : List Char)
  | text (value : JsonText)
  | array (elements : List Json)
  | object (members : List (JsonText × Json))

namespace Json

mutual

/-- How deep arrays and objects are nested. -/
def depth : Json → Nat
  | null => 0
  | bool _ => 0
  | number _ => 0
  | text _ => 0
  | array elements => depthAll elements + 1
  | object members => depthMembers members + 1

/-- How deep arrays and objects are nested in the values. -/
def depthAll : List Json → Nat
  | [] => 0
  | value :: rest => max value.depth (depthAll rest)

/-- How deep arrays and objects are nested in the members. -/
def depthMembers : List (JsonText × Json) → Nat
  | [] => 0
  | (_, value) :: rest => max value.depth (depthMembers rest)

end

end Json

end ModuleTyping
