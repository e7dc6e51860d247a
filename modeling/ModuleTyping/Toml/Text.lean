import ModuleTyping.Decimal

/-!
# Texts in TOML

A text stands between quotes, in which escapes count, or between apostrophes, in which all
characters stand for themselves. With three of either around it, it may go over several
lines; a line break right after them is dropped.
-/

namespace ModuleTyping.Toml

/-- The blanks inside a line. -/
def isBlank (c : Char) : Bool :=
  c == ' ' || c == '\t'

/-- The characters that may stand in texts and comments: all but control characters, of
which only the tab may. -/
def isPrintable (c : Char) : Bool :=
  c == '\t' || (c.toNat ≥ 0x20 && c.toNat ≠ 0x7F)

/-- The characters begin with a line break. -/
def startsLine : List Char → Bool
  | '\n' :: _ => true
  | '\r' :: '\n' :: _ => true
  | _ => false

/-- Drops one line break in front. -/
def dropLine : List Char → List Char
  | '\n' :: cs => cs
  | '\r' :: '\n' :: cs => cs
  | cs => cs

/-- The character that a short escape stands for. -/
def shortEscape? (c : Char) : Option Char :=
  match c with
  | 'b' => some '\x08'
  | 't' => some '\t'
  | 'n' => some '\n'
  | 'f' => some '\x0c'
  | 'r' => some '\r'
  | '"' => some '"'
  | '\\' => some '\\'
  | _ => none

/-- The character that hexadecimal digits stand for. Halves of surrogate pairs are none. -/
def escaped? (digits : List Char) : Option Char := do
  let n ← Decimal.hexNumber? digits
  if n.isValidChar then some (Char.ofNat n) else none

/-- Puts a character before a text that has been read, with what follows the text. -/
def before (c : Char) (read : Option (List Char × List Char)) : Option (List Char × List Char) :=
  read.map fun (chars, rest) => (c :: chars, rest)

/-- A text after its opening quote, up to the closing one. -/
def quotedText : List Char → Option (List Char × List Char)
  | '"' :: rest => some ([], rest)
  | '\\' :: 'u' :: a :: b :: c :: d :: rest =>
    match escaped? [a, b, c, d] with
    | some char => before char (quotedText rest)
    | none => none
  | '\\' :: 'U' :: a :: b :: c :: d :: e :: f :: g :: h :: rest =>
    match escaped? [a, b, c, d, e, f, g, h] with
    | some char => before char (quotedText rest)
    | none => none
  | '\\' :: c :: rest =>
    match shortEscape? c with
    | some char => before char (quotedText rest)
    | none => none
  | c :: rest => if c ≠ '\\' && isPrintable c then before c (quotedText rest) else none
  | [] => none

/-- A text after its opening apostrophe, up to the closing one. -/
def literalText : List Char → Option (List Char × List Char)
  | '\'' :: rest => some ([], rest)
  | c :: rest => if isPrintable c then before c (literalText rest) else none
  | [] => none

/-- A text of several lines after its three opening quotes, up to the closing ones, before
which two more may stand. After a backslash at the end of a line, line breaks and blanks are
dropped: that is what `folding` says. -/
def quotedLines (folding : Bool) : List Char → Option (List Char × List Char)
  | '"' :: '"' :: '"' :: '"' :: '"' :: rest => some (['"', '"'], rest)
  | '"' :: '"' :: '"' :: '"' :: rest => some (['"'], rest)
  | '"' :: '"' :: '"' :: rest => some ([], rest)
  | '\\' :: 'u' :: a :: b :: c :: d :: rest =>
    match escaped? [a, b, c, d] with
    | some char => before char (quotedLines false rest)
    | none => none
  | '\\' :: 'U' :: a :: b :: c :: d :: e :: f :: g :: h :: rest =>
    match escaped? [a, b, c, d, e, f, g, h] with
    | some char => before char (quotedLines false rest)
    | none => none
  | '\\' :: c :: rest =>
    if startsLine ((c :: rest).dropWhile isBlank) then quotedLines true (c :: rest)
    else
      match shortEscape? c with
      | some char => before char (quotedLines false rest)
      | none => none
  | '\r' :: '\n' :: rest =>
    if folding then quotedLines true rest else before '\n' (quotedLines false rest)
  | c :: rest =>
    if folding && (isBlank c || c == '\n') then quotedLines true rest
    else if c == '\n' || (c ≠ '\\' && isPrintable c) then before c (quotedLines false rest)
    else none
  | [] => none

/-- A text of several lines after its three opening apostrophes, up to the closing ones,
before which two more may stand. -/
def literalLines : List Char → Option (List Char × List Char)
  | '\'' :: '\'' :: '\'' :: '\'' :: '\'' :: rest => some (['\'', '\''], rest)
  | '\'' :: '\'' :: '\'' :: '\'' :: rest => some (['\''], rest)
  | '\'' :: '\'' :: '\'' :: rest => some ([], rest)
  | '\r' :: '\n' :: rest => before '\n' (literalLines rest)
  | c :: rest => if c == '\n' || isPrintable c then before c (literalLines rest) else none
  | [] => none

/-- A text in one line, if one stands in front. -/
def lineText : List Char → Option (List Char × List Char)
  | '"' :: rest => quotedText rest
  | '\'' :: rest => literalText rest
  | _ => none

/-- A text in one line or several, if one stands in front. -/
def anyText : List Char → Option (List Char × List Char)
  | '"' :: '"' :: '"' :: rest => quotedLines false (dropLine rest)
  | '\'' :: '\'' :: '\'' :: rest => literalLines (dropLine rest)
  | cs => lineText cs

end ModuleTyping.Toml
