import ModuleTyping.Decimal

/-!
# The range of JSON numbers

A number is read as a whole number of 64 bits and a power of ten. The digits that the 64
bits do not hold are dropped: those before the point raise the power, and those after it
count for nothing. Both are then rounded to double precision before they are multiplied,
so close to the greatest double-precision number the steps decide whether a number is
still in range. `isFinite` follows them.
-/

namespace ModuleTyping.Json

/-- The number after one more digit, if 64 bits hold it. -/
def append? (n : Nat) (digit : Char) : Option Nat :=
  let next := n * 10 + (digit.toNat - '0'.toNat)
  if next < Nat.pow 2 64 then some next else none

/-- The number that the digits before the point write after `n`, up to the first digit that
does not fit, and how many digits are left from there on. -/
def takeWhole (n : Nat) : List Char → Nat × Nat
  | [] => (n, 0)
  | digit :: rest =>
    match append? n digit with
    | some next => takeWhole next rest
    | none => (n, rest.length + 1)

/-- The number that the digits after the point write after `n`, up to the first digit that
does not fit, and how many digits are taken. -/
def takeFraction (n : Nat) : List Char → Nat × Nat
  | [] => (n, 0)
  | digit :: rest =>
    match append? n digit with
    | some next =>
      let (total, taken) := takeFraction next rest
      (total, taken + 1)
    | none => (n, 0)

/-- The number is in the range of double precision. Ten to the power of 308 is the greatest
power of ten in that range. -/
def isFinite (digits : List Char) : Bool :=
  let parts := Decimal.partsOf (digits.dropWhile (· = '-'))
  let (whole, left) := takeWhole 0 parts.whole
  let (significand, taken) := takeFraction whole parts.fraction
  let power := parts.exponent + left - taken
  if significand = 0 then true
  else if 308 < power then false
  else Decimal.nearest significand * Decimal.nearest (Nat.pow 10 power.toNat) < Decimal.tooLarge

end ModuleTyping.Json
