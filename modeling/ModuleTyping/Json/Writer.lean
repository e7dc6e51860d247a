import ModuleTyping.Decimal
import ModuleTyping.Json.Basic

/-!
# Writing JSON

Values are written over several lines, members and elements each on a line of their own,
indented by two spaces for every level. An array or object without contents is written as
a pair of brackets.
-/

namespace ModuleTyping.Json

/-- How a character is written inside a text: quotes, backslashes and control characters
are escaped, all others stand for themselves. -/
def escapeUnit (unit : Nat) : List Char :=
  if unit = 0x22 then ['\\', '"']
  else if unit = 0x5C then ['\\', '\\']
  else if unit = 0x08 then ['\\', 'b']
  else if unit = 0x09 then ['\\', 't']
  else if unit = 0x0A then ['\\', 'n']
  else if unit = 0x0C then ['\\', 'f']
  else if unit = 0x0D then ['\\', 'r']
  else if unit < 0x20 then '\\' :: 'u' :: Decimal.hexDigits 4 unit
  else [Char.ofNat unit]

/-- A text between its quotes. -/
def writeText (text : JsonText) : List Char :=
  '"' :: text.flatMap escapeUnit ++ ['"']

/-- A new line at a level of indentation. -/
def newLine (level : Nat) : List Char :=
  '\n' :: List.replicate (2 * level) ' '

mutual

/-- A value at a level of indentation. -/
def write (level : Nat) : Json → List Char
  | null => ['n', 'u', 'l', 'l']
  | bool true => ['t', 'r', 'u', 'e']
  | bool false => ['f', 'a', 'l', 's', 'e']
  | number digits => digits
  | text value => writeText value
  | array [] => ['[', ']']
  | array (value :: rest) =>
    '[' :: newLine (level + 1) ++ write (level + 1) value ++ writeElements (level + 1) rest ++
      newLine level ++ [']']
  | object [] => ['\x7b', '\x7d']
  | object ((name, value) :: rest) =>
    '\x7b' :: newLine (level + 1) ++ writeText name ++ [':', ' '] ++ write (level + 1) value ++
      writeMembers (level + 1) rest ++ newLine level ++ ['\x7d']

/-- The elements of an array after the first. -/
def writeElements (level : Nat) : List Json → List Char
  | [] => []
  | value :: rest => ',' :: newLine level ++ write level value ++ writeElements level rest

/-- The members of an object after the first. -/
def writeMembers (level : Nat) : List (JsonText × Json) → List Char
  | [] => []
  | (name, value) :: rest =>
    ',' :: newLine level ++ writeText name ++ [':', ' '] ++ write level value ++
      writeMembers level rest

end

/-- The text of a value. -/
def toText (value : Json) : String :=
  String.ofList (value.write 0)

end ModuleTyping.Json
