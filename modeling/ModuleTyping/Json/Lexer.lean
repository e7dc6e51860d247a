import ModuleTyping.Decimal
import ModuleTyping.Json.Basic

/-!
# JSON tokens

A JSON text is cut into tokens by a machine that takes one character at a time. Blanks
between tokens are dropped; a text that is cut off, holds a bare control character or an
unknown escape has no tokens.
-/

namespace ModuleTyping.Json

/-- A token of a JSON text. -/
inductive Token where
  /-- A bracket, a brace, a colon or a comma. -/
  | mark (c : Char)
  | text (value : JsonText)
  | number (digits : List Char)
  /-- A word: `true`, `false`, `null`, or one that means nothing. -/
  | word (letters : List Char)
  deriving DecidableEq, Repr

/-- Where the machine stands: between tokens, or inside one, of which it holds what it has
read in reverse. -/
inductive LexState where
  | between
  | word (letters : List Char)
  | number (digits : List Char)
  | text (units : JsonText)
  | escape (units : JsonText)
  /-- In an escape by code unit, with so many digits left. -/
  | unitEscape (units : JsonText) (left : Nat) (value : Nat)

/-- The blanks of JSON texts. -/
def isBlank (c : Char) : Bool :=
  c == ' ' || c == '\n' || c == '\t' || c == '\r'

/-- Brackets, braces, colons and commas. -/
def isMark (c : Char) : Bool :=
  c == '\x7b' || c == '\x7d' || c == '[' || c == ']' || c == ':' || c == ','

/-- The characters of numbers. -/
def isNumberChar (c : Char) : Bool :=
  c.isDigit || c == '-' || c == '+' || c == '.' || c == 'e' || c == 'E'

/-- The code point that a short escape stands for. -/
def shortEscape? (c : Char) : Option Nat :=
  match c with
  | '"' => some 0x22
  | '\\' => some 0x5C
  | '/' => some 0x2F
  | 'b' => some 0x08
  | 'f' => some 0x0C
  | 'n' => some 0x0A
  | 'r' => some 0x0D
  | 't' => some 0x09
  | _ => none

/-- Starts a token, or passes over a blank: the tokens that are complete, and the new
state. -/
def startToken (c : Char) : Option (List Token × LexState) :=
  if isBlank c then some ([], .between)
  else if isMark c then some ([.mark c], .between)
  else if c == '"' then some ([], .text [])
  else if c == '-' || c.isDigit then some ([], .number [c])
  else if c.isAlpha then some ([], .word [c])
  else none

/-- Puts a token that is complete before those that follow. -/
def after (token : Token) (next : Option (List Token × LexState)) :
    Option (List Token × LexState) :=
  next.map fun (tokens, state) => (token :: tokens, state)

/-- Takes one character: the tokens it completes, and the new state. -/
def step : LexState → Char → Option (List Token × LexState)
  | .between, c => startToken c
  | .word letters, c =>
    if c.isAlpha then some ([], .word (c :: letters))
    else after (.word letters.reverse) (startToken c)
  | .number digits, c =>
    if isNumberChar c then some ([], .number (c :: digits))
    else after (.number digits.reverse) (startToken c)
  | .text units, c =>
    if c == '"' then some ([.text units.reverse], .between)
    else if c == '\\' then some ([], .escape units)
    else if c.toNat < 0x20 then none
    else some ([], .text (c.toNat :: units))
  | .escape units, c =>
    if c == 'u' then some ([], .unitEscape units 3 0)
    else (shortEscape? c).map fun value => ([], .text (value :: units))
  | .unitEscape units left value, c =>
    match Decimal.hexValue? c with
    | none => none
    | some digit =>
      let value := value * 16 + digit
      match left with
      | 0 => some ([], .text (value :: units))
      | left + 1 => some ([], .unitEscape units left value)

/-- The token that the end of the text completes. -/
def finish : LexState → Option (List Token)
  | .between => some []
  | .word letters => some [.word letters.reverse]
  | .number digits => some [.number digits.reverse]
  | .text _ => none
  | .escape _ => none
  | .unitEscape _ _ _ => none

/-- The tokens of a text, from a state of the machine on. -/
def lexFrom (state : LexState) : List Char → Option (List Token)
  | [] => finish state
  | c :: rest =>
    match step state c with
    | none => none
    | some (tokens, state) => (lexFrom state rest).map (tokens ++ ·)

/-- The tokens of a text. -/
def lex (text : List Char) : Option (List Token) :=
  lexFrom .between text

end ModuleTyping.Json
