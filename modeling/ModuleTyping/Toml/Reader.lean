import ModuleTyping.Toml.Basic
import ModuleTyping.Toml.Scalar
import ModuleTyping.Toml.Text

/-!
# Reading TOML

A document is read into statements, each of which is a header or gives a member its value,
and the statements build the document one after another. Values may be nested, and names may
have parts, up to `depthLimit`.

Readers take characters and give what they read with the characters after it. Those that
repeat are given the number of characters as a bound on how often.
-/

namespace ModuleTyping.Toml

/-- How deep arrays and tables in braces may be nested, and how many parts a name may have. -/
def depthLimit : Nat := 79

/-- Reads something off the front of the characters. -/
abbrev Reader (α : Type) := List Char → Option (α × List Char)

/-- Drops blanks in front. -/
def skipBlanks (cs : List Char) : List Char :=
  cs.dropWhile isBlank

/-- Reads one character that has to be there. -/
def expect (c : Char) : List Char → Option (List Char)
  | d :: rest => if d = c then some rest else none
  | [] => none

/-- Drops blanks, line breaks and comments in front. -/
def skipLines (inComment : Bool) : List Char → List Char
  | '\n' :: rest => skipLines false rest
  | '\r' :: '\n' :: rest => skipLines false rest
  | c :: rest =>
    if inComment then if isPrintable c then skipLines true rest else c :: rest
    else if isBlank c then skipLines false rest
    else if c == '#' then skipLines true rest
    else c :: rest
  | [] => []

/-- The rest of a line after a statement: blanks, maybe a comment, and the line break or
the end of the text. -/
def endLine (cs : List Char) : Option (List Char) :=
  let cs := skipBlanks cs
  let cs := if cs.head? = some '#' then cs.dropWhile isPrintable else cs
  if cs.isEmpty then some []
  else if startsLine cs then some (dropLine cs)
  else none

/-- The characters of names without quotes. -/
def isNameChar (c : Char) : Bool :=
  c.isAlphanum || c == '_' || c == '-'

/-- One part of a name. -/
def readPart (cs : List Char) : Option (String × List Char) :=
  match cs.head? with
  | some '"' => (lineText cs).map fun (chars, rest) => (String.ofList chars, rest)
  | some '\'' => (lineText cs).map fun (chars, rest) => (String.ofList chars, rest)
  | _ =>
    let part := cs.takeWhile isNameChar
    if part.isEmpty then none else some (String.ofList part, cs.dropWhile isNameChar)

/-- The parts of a dotted name, with blanks around them. -/
def readParts : Nat → Reader (List String)
  | 0, _ => none
  | bound + 1, cs =>
    match readPart (skipBlanks cs) with
    | none => none
    | some (part, rest) =>
      match skipBlanks rest with
      | '.' :: rest => (readParts bound rest).map fun (parts, rest) => (part :: parts, rest)
      | rest => some ([part], rest)

/-- A dotted name: the parts before the last, and the last. -/
def readName (cs : List Char) : Option ((List String × String) × List Char) :=
  match readParts cs.length cs with
  | none => none
  | some (parts, rest) =>
    match parts.getLast? with
    | some last => if parts.length ≤ depthLimit then some ((parts.dropLast, last), rest) else none
    | none => none

/-- The characters of truth values, numbers, dates and times. -/
def isScalarChar (c : Char) : Bool :=
  c.isAlphanum || c == '_' || c == '-' || c == '+' || c == '.' || c == ':'

/-- A truth value, a number, a date or a time. A blank may stand between a date and the time
of day. -/
def readScalar (cs : List Char) : Option (Toml × List Char) :=
  let written := cs.takeWhile isScalarChar
  let rest := cs.dropWhile isScalarChar
  if written = ['t', 'r', 'u', 'e'] then some (.bool true, rest)
  else if written = ['f', 'a', 'l', 's', 'e'] then some (.bool false, rest)
  else if isDate written then
    let hour := rest.tail.takeWhile isScalarChar
    if rest.head? = some ' ' && isOffsetTime hour then
      some (.time (written ++ ' ' :: hour), rest.tail.dropWhile isScalarChar)
    else some (.time written, rest)
  else if isTime written then some (.time written, rest)
  else if isNumber written then some (.number written, rest)
  else none

/-- The elements of an array after the opening bracket, up to the closing one. A comma may
stand after the last. -/
def readElements (readElement : Reader Toml) : Nat → Reader (List Toml)
  | 0, _ => none
  | bound + 1, cs =>
    match skipLines false cs with
    | ']' :: rest => some ([], rest)
    | cs =>
      match readElement cs with
      | none => none
      | some (element, rest) =>
        match skipLines false rest with
        | ',' :: rest =>
          (readElements readElement bound rest).map fun (elements, rest) =>
            (element :: elements, rest)
        | ']' :: rest => some ([element], rest)
        | _ => none

/-- A member: its name, an equals sign and its value. -/
def readMember (readValue : Reader Toml) : Reader ((List String × String) × Toml) := fun cs => do
  let (name, rest) ← readName cs
  let rest ← expect '=' rest
  let (value, rest) ← readValue (skipBlanks rest)
  return ((name, value), rest)

/-- The members of a table in braces, up to the closing one. -/
def readMembers (readValue : Reader Toml) (members : Members) : Nat → Reader Members
  | 0, _ => none
  | bound + 1, cs =>
    match readMember readValue cs with
    | none => none
    | some (((path, name), value), rest) =>
      match enter name value path members with
      | none => none
      | some members =>
        match skipBlanks rest with
        | ',' :: rest => readMembers readValue members bound rest
        | '\x7d' :: rest => some (members, rest)
        | _ => none

/-- A value in which arrays and tables in braces may be nested so deep. -/
def readValue (depth : Nat) : Reader Toml
  | '"' :: rest =>
    (anyText ('"' :: rest)).map fun (chars, rest) => (.text (String.ofList chars), rest)
  | '\'' :: rest =>
    (anyText ('\'' :: rest)).map fun (chars, rest) => (.text (String.ofList chars), rest)
  | '[' :: rest =>
    match depth with
    | 0 => none
    | depth + 1 =>
      (readElements (readValue depth) rest.length rest).map fun (elements, rest) =>
        (.array elements, rest)
  | '\x7b' :: rest =>
    match depth, skipBlanks rest with
    | 0, _ => none
    | _ + 1, '\x7d' :: rest => some (.table .inline [], rest)
    | depth + 1, rest =>
      (readMembers (readValue depth) [] rest.length rest).map fun (members, rest) =>
        (.table .inline members, rest)
  | cs => readScalar cs
termination_by structural depth

/-- A statement of a document. -/
inductive Statement where
  /-- A header in single brackets. -/
  | table (path : List String) (name : String)
  /-- A header in double brackets. -/
  | element (path : List String) (name : String)
  | member (path : List String) (name : String) (value : Toml)

/-- A header in double brackets, after them. -/
def readElementHeader : Reader Statement := fun cs => do
  let ((path, name), rest) ← readName cs
  let rest ← expect ']' rest
  let rest ← expect ']' rest
  return (.element path name, ← endLine rest)

/-- A header in single brackets, after the opening one. -/
def readTableHeader : Reader Statement := fun cs => do
  let ((path, name), rest) ← readName cs
  let rest ← expect ']' rest
  return (.table path name, ← endLine rest)

/-- One statement. -/
def readStatement : Reader Statement
  | '[' :: '[' :: rest => readElementHeader rest
  | '[' :: rest => readTableHeader rest
  | cs => do
    let (((path, name), value), rest) ← readMember (readValue depthLimit) cs
    return (.member path name value, ← endLine rest)

/-- All statements. -/
def readStatements : Nat → List Char → Option (List Statement)
  | bound, cs =>
    match skipLines false cs with
    | [] => some []
    | cs =>
      match bound with
      | 0 => none
      | bound + 1 =>
        match readStatement cs with
        | none => none
        | some (statement, rest) => (readStatements bound rest).map (statement :: ·)

/-- A document that is being built, and the path of the header that members now belong to. -/
structure Draft where
  members : Members := []
  current : List String := []

namespace Draft

/-- What a statement does. -/
def apply (draft : Draft) : Statement → Option Draft
  | .table path name =>
    (within (openTable name) path draft.members).map fun members =>
      { members, current := path ++ [name] }
  | .element path name =>
    (within (openElement name) path draft.members).map fun members =>
      { members, current := path ++ [name] }
  | .member path name value =>
    (within (enter name value path) draft.current draft.members).map fun members =>
      { draft with members }

end Draft

/-- The document that a text writes. A byte order mark in front of it is dropped. -/
def read? (text : String) : Option Members := do
  let cs := text.toList
  let cs := if cs.head? = some '\uFEFF' then cs.tail else cs
  let statements ← readStatements cs.length cs
  let draft ← statements.foldlM Draft.apply {}
  return draft.members

end ModuleTyping.Toml
