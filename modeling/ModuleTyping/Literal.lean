import ModuleTyping.Ty.Basic

/-!
# Literals and operators

What source programs and typed programs have in common: the literal values and the
operators, with the signs that write them.
-/

namespace ModuleTyping

/-- A literal value. A fraction is held as the bits of its double-precision form, so that
every value, signed zeros and the values that are no numbers included, stays apart. -/
inductive Literal where
  | int (value : Int)
  | float (bits : UInt64)
  | str (value : String)
  | bool (value : Bool)
  | unit
  deriving DecidableEq, Repr

/-- The type of a literal on its own. -/
def Literal.ty : Literal → Ty
  | int _ => .i32
  | float _ => .f32
  | str _ => .string
  | bool _ => .bool
  | unit => .unit

/-- Operators with two operands. -/
inductive BinaryOp where
  | add
  | sub
  | mul
  | div
  | mod
  | eq
  | ne
  | lt
  | gt
  | le
  | ge
  | and
  | or
  deriving DecidableEq, Repr

namespace BinaryOp

/-- All operators with two operands. -/
def all : List BinaryOp :=
  [add, sub, mul, div, mod, eq, ne, lt, gt, le, ge, and, or]

/-- The sign of an operator. -/
def sign : BinaryOp → String
  | add => "+"
  | sub => "-"
  | mul => "*"
  | div => "/"
  | mod => "%"
  | eq => "=="
  | ne => "!="
  | lt => "<"
  | gt => ">"
  | le => "<="
  | ge => ">="
  | and => "&&"
  | or => "||"

/-- The operator a sign stands for. -/
def ofSign? (sign : String) : Option BinaryOp :=
  all.find? (·.sign == sign)

end BinaryOp

/-- Operators with one operand. -/
inductive UnaryOp where
  | not
  | neg
  | plus
  deriving DecidableEq, Repr

namespace UnaryOp

/-- All operators with one operand. -/
def all : List UnaryOp :=
  [not, neg, plus]

/-- The sign of an operator. -/
def sign : UnaryOp → String
  | not => "!"
  | neg => "-"
  | plus => "+"

/-- The operator a sign stands for. -/
def ofSign? (sign : String) : Option UnaryOp :=
  all.find? (·.sign == sign)

end UnaryOp

end ModuleTyping
