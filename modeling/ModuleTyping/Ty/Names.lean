import ModuleTyping.Text.Upper
import ModuleTyping.Ty.Basic

/-!
# Names with a meaning of their own

The scalar types, the classes they fall into, the constraints a type parameter can
carry, and the functions for input and output that need no declaration.
-/

namespace ModuleTyping

/-- The types that are known before anything is declared. -/
def primitiveNames : List String :=
  ["bool", "void", "unit", "i8", "u8", "i16", "u16", "i32", "u32", "i64", "u64", "f32", "f64",
    "usize", "str", "string", "regex"]

/-- The numeric scalars. -/
def numericNames : List String :=
  ["i8", "i16", "i32", "i64", "u8", "u16", "u32", "u64", "f32", "f64"]

/-- The scalars that hold fractions. -/
def floatNames : List String :=
  ["f32", "f64"]

/-- The name is that of a numeric scalar. -/
def isNumericName (name : String) : Bool :=
  numericNames.contains name

/-- The name is that of a scalar that holds fractions. -/
def isFloatName (name : String) : Bool :=
  floatNames.contains name

/-- The name is that of a scalar whose values are known when a program is built. -/
def isLiteralName (name : String) : Bool :=
  isNumericName name || name == "bool" || name == "usize" || name == "unit" || name == "void"

/-- The one spelling of a type name that has two. -/
def normalName (name : String) : String :=
  if name = "str" then "string" else name

/-- The name stands for a type that may still be open: it starts with a capital letter,
or it is empty. -/
def isPlaceholderName (name : String) : Bool :=
  match name.toList with
  | [] => true
  | c :: _ => Text.isUpper c

/-- The types that a constraint admits, if there is a constraint of that name. -/
def constraintMembers? (constraint : String) : Option (List String) :=
  if constraint = "Numeric" then some ["i32", "f32", "i64", "f64", "u32", "u64"] else none

/-- The result of a function for input or output, or for making text. -/
def builtinResult? (name : String) : Option Ty :=
  if ["print", "println", "eprint", "eprintln"].contains name then some .i32
  else if ["read_line", "input", "to_string", "format"].contains name then some .string
  else if name = "args" then some (.array .string)
  else none

/-- The name is that of a function for input or output, or for making text. -/
def isBuiltin (name : String) : Bool :=
  (builtinResult? name).isSome

namespace Ty

/-- The name under which a type is compared with others. -/
def normalName (ty : Ty) : String :=
  ModuleTyping.normalName ty.name

/-- A numeric scalar, or a variable, which may come to stand for one. -/
def isNumeric (ty : Ty) : Bool :=
  ty.isVar || isNumericName ty.normalName

/-- A scalar that holds fractions. -/
def isFloat (ty : Ty) : Bool :=
  isFloatName ty.name

/-- The type of texts, in either spelling. -/
def isString (ty : Ty) : Bool :=
  ty.normalName == "string"

mutual

/-- The two types agree in the names they are compared by, throughout array elements and
type arguments. -/
def equivalent : Ty → Ty → Bool
  | var a _, var b _ => a == b
  | generic a as, generic b bs => a.name == b.name && equivalentAll as bs
  | array a, array b => a.equivalent b
  | a, b => a.normalName == b.normalName

/-- The two lists have the same length and equivalent types in each place. -/
def equivalentAll : List Ty → List Ty → Bool
  | [], [] => true
  | a :: as, b :: bs => a.equivalent b && equivalentAll as bs
  | _, _ => false

end

end Ty

end ModuleTyping
