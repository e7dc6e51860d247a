/-!
# Written numbers

Numbers in texts are read where their size matters: whole numbers have a value, and
numbers with a fraction or an exponent are told apart by whether a finite double-precision
number is near to them. Escapes write characters by hexadecimal digits.
-/

namespace ModuleTyping.Decimal

/-- One or more digits, and nothing else. -/
def areDigits (cs : List Char) : Bool :=
  !cs.isEmpty && cs.all Char.isDigit

/-- The number that decimal digits write. -/
def value (digits : List Char) : Nat :=
  digits.foldl (fun n c => n * 10 + (c.toNat - '0'.toNat)) 0

/-- The value of a hexadecimal digit. -/
def hexValue? (c : Char) : Option Nat :=
  if c.isDigit then some (c.toNat - '0'.toNat)
  else if 'a' ≤ c ∧ c ≤ 'f' then some (c.toNat - 'a'.toNat + 10)
  else if 'A' ≤ c ∧ c ≤ 'F' then some (c.toNat - 'A'.toNat + 10)
  else none

/-- The lower-case hexadecimal digit of a number below sixteen. -/
def hexDigit (n : Nat) : Char :=
  if n < 10 then Char.ofNat ('0'.toNat + n) else Char.ofNat ('a'.toNat + (n - 10))

/-- The number that hexadecimal digits write. -/
def hexNumber? (digits : List Char) : Option Nat :=
  (digits.mapM hexValue?).map (·.foldl (fun n digit => n * 16 + digit) 0)

/-- A number by so many hexadecimal digits. -/
def hexDigits : Nat → Nat → List Char
  | 0, _ => []
  | count + 1, n => hexDigits count (n / 16) ++ [hexDigit (n % 16)]

/-- The letter that comes before an exponent. -/
def isExponentMark (c : Char) : Bool :=
  c == 'e' || c == 'E'

/-- The least whole number that no finite double-precision number is near to. -/
def tooLarge : Nat := Nat.pow 2 1024 - Nat.pow 2 970

/-- The whole number nearest to `n` that double precision holds, which has 53 binary digits
and zeros after them. Of two that are equally near it is the one with the even digits. -/
def nearest (n : Nat) : Nat :=
  let unit := Nat.pow 2 (n.log2 - 52)
  let below := n / unit
  let rest := 2 * (n % unit)
  if unit < rest || (rest == unit && below % 2 == 1) then (below + 1) * unit else below * unit

/-- A number without a sign, taken apart: the digits before the point, those after it, and
the exponent. -/
structure Parts where
  whole : List Char
  fraction : List Char
  exponent : Int

/-- Takes a number without a sign apart. -/
def partsOf (unsigned : List Char) : Parts :=
  let mantissa := unsigned.takeWhile (!isExponentMark ·)
  let exponent := (unsigned.dropWhile (!isExponentMark ·)).tail
  let size : Int := value (exponent.filter Char.isDigit)
  { whole := mantissa.takeWhile (· ≠ '.')
    fraction := (mantissa.dropWhile (· ≠ '.')).tail
    exponent := if exponent.head? = some '-' then -size else size }

/-- A finite double-precision number is near to the number without a sign that is written
by digits, a fraction and an exponent. A number with fewer than 309 places before the
point is small enough, and one with more is not. -/
def isFinite (unsigned : List Char) : Bool :=
  let parts := partsOf unsigned
  let significant := (parts.whole ++ parts.fraction).dropWhile (· = '0')
  let power := parts.exponent - parts.fraction.length
  let places := significant.length + power
  if significant.isEmpty || places < 309 then true
  else if places > 309 then false
  else value significant * Nat.pow 10 power.toNat < tooLarge * Nat.pow 10 (-power).toNat

end ModuleTyping.Decimal
