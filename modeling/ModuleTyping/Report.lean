import ModuleTyping.Fault
import ModuleTyping.Text.Blank
import ModuleTyping.Text.Width
import ModuleTyping.Ty.Names

/-!
# Reports

A fault is reported to a user with its code and message, the line of the source that it
arose in, an underlined label, and advice if there is some. `Fault.report` writes the
whole text.

Rows under a source line have to meet its characters, so each character is drawn as a
`Cell` with its width, and a row draws a `Mark` of that width below it.
-/

namespace ModuleTyping

namespace FaultKind

/-- What stands under the place where a fault arose. -/
def label : FaultKind → String
  | unknownIdentifier => "not found in this scope"
  | unknownType => "unknown type"
  | unknownMember => "no such member"
  | arityMismatch => "wrong number of arguments"
  | typeMismatch => "type mismatch here"
  | inconsistentBinding => "conflicting type argument"
  | nonExhaustiveMatch => "not all variants are covered"
  | emptyMatch => "no arms"
  | invalidConstraint => "constraint not satisfied"
  | invalidOperand => "invalid operand"
  | noApplicableRule => "cannot lower this"
  | registry => "invalid declaration"

end FaultKind

namespace Report

/-- The part stands somewhere in the text. -/
def occurs (part : List Char) : List Char → Bool
  | [] => part.isEmpty
  | c :: cs => part.isPrefixOf (c :: cs) || occurs part cs

/-- The message says that a text is wanted where a number was found. -/
def wantsText (message : String) : Bool :=
  let cs := message.toList
  occurs "expected string".toList cs &&
    numericNames.any fun name => ("got " ++ name).toList.isSuffixOf cs

/-- How the fault could be mended. -/
def advice? (fault : Fault) : Option String :=
  match fault.kind with
  | .nonExhaustiveMatch => some "add arms for the missing variants or a wildcard `_` arm"
  | .emptyMatch => some "add at least one arm"
  | .inconsistentBinding =>
    some "every argument bound to the same type parameter must have the same type"
  | .unknownIdentifier => some "declare it before use, or import the module that exports it"
  | .typeMismatch =>
    if wantsText fault.message then some "convert the value with `to_string()`" else none
  | _ => none

/-- The characters that end a line. -/
def endsLine (c : Char) : Bool :=
  c == '\r' || c == '\n' || c == '\x0b' || c == '\x0c' || c == '\u0085' || c == '\u2028' ||
    c == '\u2029'

/-- The lines of a text, each with what ends it. A carriage return and a line feed after it
end one line together. `line` holds in reverse what is read of the current line. -/
def splitLines (line : List Char) : List Char → List (List Char)
  | [] => if line.isEmpty then [] else [line.reverse]
  | '\r' :: '\n' :: rest => ('\n' :: '\r' :: line).reverse :: splitLines [] rest
  | c :: rest =>
    if endsLine c then (c :: line).reverse :: splitLines [] rest else splitLines (c :: line) rest

/-- The lines of a source. An empty source has one empty line. -/
def linesOf (source : String) : List (List Char) :=
  match splitLines [] source.toList with
  | [] => [[]]
  | lines => lines

/-- The lines of a text inside a section. A carriage return before a line feed belongs to the
end of the line, and the text after the last line feed is a line unless it is empty. -/
def splitText (line : List Char) : List Char → List String
  | [] => if line.isEmpty then [] else [String.ofList line.reverse]
  | '\r' :: '\n' :: rest => String.ofList line.reverse :: splitText [] rest
  | '\n' :: rest => String.ofList line.reverse :: splitText [] rest
  | c :: rest => splitText (c :: line) rest

/-- A place in a source: the number of its line, its column there, both from zero, and the
line. -/
structure Place where
  row : Nat
  column : Nat
  line : List Char

/-- The place of a position, counted in characters. A position after the last line belongs
to the last line. -/
def locate : List (List Char) → Nat → Nat → Place
  | [], position, row => { row, column := position, line := [] }
  | [line], position, row => { row, column := position, line }
  | line :: next :: rest, position, row =>
    if position < line.length then { row, column := position, line }
    else locate (next :: rest) (position - line.length) (row + 1)

/-- The part of a source that is underlined, inside the source and where possible not empty.
The size of the source is counted in bytes. -/
def clamp (origin : Origin) (size : Nat) : Span :=
  let span := origin.getD { start := 0, stop := size }
  let start := min span.start size
  let stop := max (min span.stop size) start
  if start = stop then { start, stop := min (stop + 1) size } else { start, stop }

/-- The source has a line for each end of the span, which is counted in characters. The
position after the last character is on the last line. -/
def reaches (source : String) (span : Span) : Bool :=
  span.start ≤ source.length && span.stop ≤ source.length + 1

/-- A character repeated. -/
def run (n : Nat) (c : Char) : String :=
  String.ofList (List.replicate n c)

/-- A character of a source line as it is shown: what is drawn, and in how many columns. -/
structure Cell where
  shown : String
  width : Nat

/-- How a character in some column of the source is shown. A tab reaches to the next column
that four divides, and any other blank is a plain space. -/
def cellOf (column : Nat) (c : Char) : Cell :=
  if c = '\t' then
    let width := 4 - column % 4
    { shown := run width ' ', width }
  else if Text.isBlank c then { shown := " ", width := 1 }
  else { shown := c.toString, width := Text.width c }

/-- The characters of a line, without the blanks that it ends with, from some column on. -/
def cellsFrom (column : Nat) : List Char → List Cell
  | [] => []
  | c :: rest => cellOf column c :: cellsFrom (column + 1) rest

/-- What a row under a line draws below one character: a mark in its first column, and a
filling in the others. -/
structure Mark where
  head : Char
  fill : Char

namespace Mark

/-- Nothing is drawn. -/
def blank : Mark := { head := ' ', fill := ' ' }

/-- A line goes through. -/
def dash : Mark := { head := '─', fill := '─' }

/-- The mark in so many columns. -/
def across (mark : Mark) : Nat → String
  | 0 => ""
  | width + 1 => mark.head.toString ++ run width mark.fill

end Mark

/-- A row of marks below the characters of a line. Beyond the line every column is one
character wide. -/
def rowOf (cells : List Cell) (length : Nat) (mark : Nat → Mark) : String :=
  String.join ((List.range length).map fun column =>
    (mark column).across ((cells[column]?).elim 1 Cell.width))

/-- The mark of a column in the row that underlines the columns from `start` up to `stop`,
where the label hangs on the column `middle`. -/
def underline (start stop middle column : Nat) : Mark :=
  let covered := start ≤ column && column < stop
  if column = middle then
    if covered then { head := '┬', fill := '─' } else { head := '│', fill := ' ' }
  else if covered then .dash else .blank

/-- The mark of a column in the row that leads from the column `middle` to the label. -/
def lead (middle column : Nat) : Mark :=
  if column = middle then { head := '╰', fill := '─' }
  else if middle < column then .dash else .blank

/-- A source line with the part underlined that starts at the place and is so many characters
long, and the label under it. A part that goes on beyond its line is not shown. -/
def excerpt (place : Place) (length : Nat) (number margin label : String) : List String :=
  let stop := place.column + length
  if place.line.length < stop then [margin ++ "│ "]
  else
    let cells := cellsFrom 0 (Text.trimEnd place.line)
    let middle := place.column + length / 2
    [" " ++ number ++ " │ " ++ String.join (cells.map Cell.shown),
      margin ++ "│ " ++ rowOf cells (stop + 2) (underline place.column stop middle),
      margin ++ "│ " ++ rowOf cells (stop + 2) (lead middle) ++ " " ++ label]

/-- The lines of a section behind the margin, after an empty one. Each further line of its
text starts below the first. -/
def titled (margin title text : String) : List String :=
  (margin ++ "│ ") :: match splitText [] text.toList with
    | [] => []
    | first :: rest =>
      (margin ++ "│ " ++ title ++ ": " ++ first) ::
        rest.map fun line => margin ++ "│ " ++ run (title.length + 2) ' ' ++ line

/-- The part of a report under its first line: where the fault arose, and what to do. -/
def frame (fault : Fault) (source file : String) (span : Span) : List String :=
  let place := locate (linesOf source) span.start 0
  let number := toString (place.row + 1)
  let width := number.length + 2
  let margin := run width ' '
  let advice := (advice? fault).elim [] (titled margin "Help")
  let note := if fault.origin.isNone then titled margin "Note" ("in " ++ file) else []
  [margin ++ "╭─[ <unknown>:" ++ number ++ ":" ++ toString (place.column + 1) ++ " ]",
    margin ++ "│"] ++
    excerpt place (span.stop - span.start) number margin fault.kind.label ++
    advice ++ note ++ [run width '─' ++ "╯"]

end Report

/-- The report of a fault in a source that was read from a file. It has a first line only
where the source is too short for the place of the fault. -/
def Fault.report (fault : Fault) (source file : String) : String :=
  let span := Report.clamp fault.origin source.utf8ByteSize
  let lines := ("[" ++ fault.kind.code ++ "] Error: " ++ fault.message) ::
    if Report.reaches source span then Report.frame fault source file span else []
  String.join (lines.map (· ++ "\n"))

end ModuleTyping
