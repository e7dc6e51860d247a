import ModuleTyping.Decimal

/-!
# Numbers, dates and times in TOML

Which runs of characters are numbers, and which are dates and times. Whole numbers have to
fit 64 bits with a sign, other numbers must not be too large above zero, and dates have to
exist.
-/

namespace ModuleTyping.Toml

/-- Digits of some kind, where single underscores may stand between two of them. -/
def areSeparated (isDigit : Char → Bool) : List Char → Bool
  | [] => false
  | [c] => isDigit c
  | c :: '_' :: rest => isDigit c && areSeparated isDigit rest
  | c :: rest => isDigit c && areSeparated isDigit rest

/-- The characters without the underscores. -/
def plain (cs : List Char) : List Char :=
  cs.filter (· ≠ '_')

/-- Decimal digits with no zero in front of others. -/
def isWhole (cs : List Char) : Bool :=
  areSeparated Char.isDigit cs && (cs = ['0'] || cs.head? ≠ some '0')

/-- The number that digits of a base write. -/
def baseValue (base : Nat) (digits : List Char) : Nat :=
  digits.foldl (fun n c => n * base + (Decimal.hexValue? c).getD 0) 0

/-- The character is a digit in a base. -/
def isDigitIn (base : Nat) (c : Char) : Bool :=
  (Decimal.hexValue? c).any (· < base)

/-- Digits in a base whose number fits 63 bits. -/
def isWholeIn (base : Nat) (cs : List Char) : Bool :=
  areSeparated (isDigitIn base) cs && baseValue base (plain cs) < Nat.pow 2 63

/-- A whole number that fits 64 bits with a sign. -/
def isInteger : List Char → Bool
  | '0' :: 'x' :: cs => isWholeIn 16 cs
  | '0' :: 'o' :: cs => isWholeIn 8 cs
  | '0' :: 'b' :: cs => isWholeIn 2 cs
  | '-' :: cs => isWhole cs && Decimal.value (plain cs) ≤ Nat.pow 2 63
  | '+' :: cs => isWhole cs && Decimal.value (plain cs) < Nat.pow 2 63
  | cs => isWhole cs && Decimal.value (plain cs) < Nat.pow 2 63

/-- An exponent without its letter: digits, behind a sign or not. -/
def isExponent : List Char → Bool
  | '+' :: cs => areSeparated Char.isDigit cs
  | '-' :: cs => areSeparated Char.isDigit cs
  | cs => areSeparated Char.isDigit cs

/-- Digits with a fraction or an exponent or both. -/
def hasFraction (cs : List Char) : Bool :=
  let mantissa := cs.takeWhile (!Decimal.isExponentMark ·)
  let exponent := cs.dropWhile (!Decimal.isExponentMark ·)
  let whole := mantissa.takeWhile (· ≠ '.')
  let fraction := mantissa.dropWhile (· ≠ '.')
  isWhole whole && !(fraction.isEmpty && exponent.isEmpty) &&
    (fraction.isEmpty || areSeparated Char.isDigit fraction.tail) &&
    (exponent.isEmpty || isExponent exponent.tail)

/-- Infinity, or what is no number. -/
def isSpecial (cs : List Char) : Bool :=
  cs = ['i', 'n', 'f'] || cs = ['n', 'a', 'n']

/-- A number that need not be whole. Only above zero can it be too large. -/
def isFloat : List Char → Bool
  | '-' :: cs => isSpecial cs || hasFraction cs
  | '+' :: cs => isSpecial cs || hasFraction cs && Decimal.isFinite (plain cs)
  | cs => isSpecial cs || hasFraction cs && Decimal.isFinite (plain cs)

/-- A number. -/
def isNumber (cs : List Char) : Bool :=
  isInteger cs || isFloat cs

/-- The number that two digits write, if they are digits and it lies in a range. -/
def twoDigits? (tens ones : Char) (least most : Nat) : Option Nat :=
  if tens.isDigit && ones.isDigit then
    let n := Decimal.value [tens, ones]
    if least ≤ n ∧ n ≤ most then some n else none
  else none

/-- How many days a month has. -/
def daysIn (year month : Nat) : Nat :=
  if month = 2 then
    if year % 4 = 0 ∧ (year % 100 ≠ 0 ∨ year % 400 = 0) then 29 else 28
  else if month = 4 ∨ month = 6 ∨ month = 9 ∨ month = 11 then 30
  else 31

/-- A date that exists. -/
def isDate : List Char → Bool
  | [y₁, y₂, y₃, y₄, '-', m₁, m₂, '-', d₁, d₂] =>
    Decimal.areDigits [y₁, y₂, y₃, y₄] &&
      match twoDigits? m₁ m₂ 1 12 with
      | some month => (twoDigits? d₁ d₂ 1 (daysIn (Decimal.value [y₁, y₂, y₃, y₄]) month)).isSome
      | none => false
  | _ => false

/-- What may follow the seconds of a time: nothing, or a fraction. The rest is what comes
after it. -/
def afterSeconds? : List Char → Option (List Char)
  | '.' :: cs =>
    if (cs.takeWhile Char.isDigit).isEmpty then none else some (cs.dropWhile Char.isDigit)
  | cs => some cs

/-- The characters after a time of day, if one stands in front. A minute may have a leap
second. -/
def afterTime? : List Char → Option (List Char)
  | h₁ :: h₂ :: ':' :: m₁ :: m₂ :: ':' :: s₁ :: s₂ :: cs =>
    if (twoDigits? h₁ h₂ 0 23).isSome && (twoDigits? m₁ m₂ 0 59).isSome &&
        (twoDigits? s₁ s₂ 0 60).isSome then
      afterSeconds? cs
    else none
  | _ => none

/-- Nothing, or an offset from universal time. -/
def isOffset : List Char → Bool
  | [] => true
  | ['Z'] => true
  | ['z'] => true
  | [sign, h₁, h₂, ':', m₁, m₂] =>
    (sign == '+' || sign == '-') && (twoDigits? h₁ h₂ 0 23).isSome && (twoDigits? m₁ m₂ 0 59).isSome
  | _ => false

/-- A time of day, with an offset or without. -/
def isOffsetTime (cs : List Char) : Bool :=
  (afterTime? cs).any isOffset

/-- A date, a time of day, or both with a letter between them. -/
def isTime (cs : List Char) : Bool :=
  isDate cs || afterTime? cs = some [] ||
    isDate (cs.take 10) &&
      match cs.drop 10 with
      | c :: rest => (c == 'T' || c == 't') && isOffsetTime rest
      | [] => false

end ModuleTyping.Toml
