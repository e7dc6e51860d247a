import ModuleTyping.Ty.Basic

/-!
# The text of a type

Types are written the way programs write them. A function type that is the element of
an array stands in parentheses, since without them the brackets would belong to its
result. Declared types are written by name, so the text of a type forgets what a
declaration holds.
-/

namespace ModuleTyping.Ty

mutual

/-- The type as it is written. -/
def text : Ty → String
  | primitive name => name
  | abstract name => name
  | record name _ => name
  | sum name _ => name
  | var name _ => name
  | array element =>
    if element.isFunction then "(" ++ element.text ++ ")[]" else element.text ++ "[]"
  | function params result => "(" ++ textAll params ++ ") -> " ++ result.text
  | generic base args => base.name ++ "<" ++ textAll args ++ ">"
  | ref referent => "&" ++ referent.text
  | mutRef referent => "&mut " ++ referent.text
  | map key value => "Map<" ++ key.text ++ ", " ++ value.text ++ ">"
  | unit => "unit"

/-- The types as they are written in a list, with commas between them. -/
def textAll : List Ty → String
  | [] => ""
  | ty :: rest => ty.text ++ textMore rest

/-- The types of a list after the first, each behind a comma. -/
def textMore : List Ty → String
  | [] => ""
  | ty :: rest => ", " ++ ty.text ++ textMore rest

end

/-- A type that may be unknown, as it is named in messages. -/
def describe : Option Ty → String
  | some ty => ty.text
  | none => "unknown"

end ModuleTyping.Ty
