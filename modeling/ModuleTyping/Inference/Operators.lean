import ModuleTyping.Check
import ModuleTyping.Literal

/-!
# Operators

What an operator yields for operands of given types. Addition also joins texts. Numbers of
different types are combined when one of them is a fraction or is not determined yet.
-/

namespace ModuleTyping

/-- The context of the left operand. -/
def leftContext (op : BinaryOp) : String :=
  s!"left operand of {Cause.quote op.sign}"

/-- The context of the right operand. -/
def rightContext (op : BinaryOp) : String :=
  s!"right operand of {Cause.quote op.sign}"

/-- The context of the only operand. -/
def operandContext (op : UnaryOp) : String :=
  s!"operand of {Cause.quote op.sign}"

namespace Ty

/-- What arithmetic on two numbers yields. A variable gives way to the other side, and two
different variables to whole numbers. -/
def combineNumbers (lhs rhs : Ty) (origin : Origin) : Check Ty :=
  match lhs, rhs with
  | .var a constraint, .var b _ => pure (if a = b then .var a constraint else .i32)
  | .var _ _, rhs => pure rhs
  | lhs, .var _ _ => pure lhs
  | lhs, rhs =>
    if lhs.isAuto then pure rhs
    else if rhs.isAuto then pure lhs
    else if lhs.normalName = rhs.normalName then pure lhs
    else if lhs.isFloat || rhs.isFloat then
      pure (if lhs.name = "f64" ∨ rhs.name = "f64" then .f64 else .f32)
    else Check.fail (.mixedNumbers lhs rhs) origin

/-- What addition yields. -/
def addResult (lhs rhs : Ty) (origin : Origin) : Check Ty :=
  if lhs.isAuto then pure rhs
  else if rhs.isAuto then pure lhs
  else if lhs.isString && rhs.isString then pure .string
  else if lhs.isNumeric && rhs.isNumeric then lhs.combineNumbers rhs origin
  else Check.fail (.cannotAdd lhs rhs) origin

/-- What division yields for two numbers: a fraction if either is one. -/
def quotient (lhs rhs : Ty) : Ty :=
  if lhs.isFloat then lhs
  else if rhs.isFloat then rhs
  else if lhs.name = rhs.name ∧ !lhs.isAuto then lhs
  else .i32

end Ty

/-- Wants both operands to be numbers. -/
def BinaryOp.checkNumeric (op : BinaryOp) (lhs rhs : Ty) (origin : Origin) : Check Unit := do
  Check.numeric lhs (leftContext op) origin
  Check.numeric rhs (rightContext op) origin

/-- What an operator with two operands yields. -/
def BinaryOp.result (op : BinaryOp) (lhs rhs : Ty) (origin : Origin) : Check Ty :=
  match op with
  | .add => lhs.addResult rhs origin
  | .sub | .mul | .mod => do
    op.checkNumeric lhs rhs origin
    lhs.combineNumbers rhs origin
  | .div => do
    op.checkNumeric lhs rhs origin
    return lhs.quotient rhs
  | .eq | .ne => do
    Check.compatible rhs lhs (rightContext op) origin
    return .bool
  | .lt | .gt | .le | .ge => do
    op.checkNumeric lhs rhs origin
    return .bool
  | .and | .or => do
    Check.boolean lhs (leftContext op) origin
    Check.boolean rhs (rightContext op) origin
    return .bool

/-- What an operator with one operand yields. -/
def UnaryOp.result (op : UnaryOp) (operand : Ty) (origin : Origin) : Check Ty :=
  match op with
  | .not => do
    Check.boolean operand (operandContext op) origin
    return .bool
  | .neg | .plus => do
    Check.numeric operand (operandContext op) origin
    return operand

end ModuleTyping
