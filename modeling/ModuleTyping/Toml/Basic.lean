/-!
# TOML documents

A document is a table of values by name. A table can come about in four ways, and the way
it came about says what may still be added to it. `enter` adds a member under a dotted
name, `openTable` and `openElement` are what headers do.
-/

namespace ModuleTyping

/-- How a table came about. -/
inductive TableForm where
  /-- Written in one piece, between braces. Nothing can be added to it. -/
  | inline
  /-- Announced by a header of its own. -/
  | headed
  /-- On the way to a table that a header announced. -/
  | implied
  /-- On the way to a member with a dotted name. -/
  | dotted
  deriving DecidableEq, Repr

/-- A TOML value. Numbers, dates and times are held by how they are written. -/
inductive Toml where
  | text (value : String)
  | bool (value : Bool)
  | number (written : List Char)
  | time (written : List Char)
  | array (elements : List Toml)
  | table (form : TableForm) (members : List (String × Toml))
  /-- The tables that headers in double brackets announced, last first. -/
  | tables (elements : List (List (String × Toml)))

namespace Toml

/-- The members of a table. -/
abbrev Members := List (String × Toml)

/-- Gives a member a value, in the place of the one it has. -/
def put (members : Members) (name : String) (value : Toml) : Members :=
  (name, value) :: members.filter (·.1 ≠ name)

/-- Adds a member under a dotted name, whose last part is given apart. The tables on the
way must not have been announced by a header or written in one piece, and the last of them
must have come about by dotted names only. -/
def enter (name : String) (value : Toml) : List String → Members → Option Members
  | [], members =>
    if (members.lookup name).isSome then none else some ((name, value) :: members)
  | part :: rest, members =>
    match members.lookup part with
    | none => (enter name value rest []).map fun inner => put members part (.table .dotted inner)
    | some (.table .dotted inner) =>
      (enter name value rest inner).map fun inner => put members part (.table .dotted inner)
    | some (.table .implied inner) =>
      if rest.isEmpty then none
      else (enter name value rest inner).map fun inner => put members part (.table .implied inner)
    | some (.tables (last :: others)) =>
      if rest.isEmpty then none
      else (enter name value rest last).map fun last => put members part (.tables (last :: others))
    | _ => none

/-- Changes the table at the end of a path of headers: of tables announced in double
brackets the last one is meant, and tables that are missing on the way are implied. -/
def within (change : Members → Option Members) : List String → Members → Option Members
  | [], members => change members
  | part :: rest, members =>
    match members.lookup part with
    | none => (within change rest []).map fun inner => put members part (.table .implied inner)
    | some (.table .inline _) => none
    | some (.table form inner) =>
      (within change rest inner).map fun inner => put members part (.table form inner)
    | some (.tables (last :: others)) =>
      (within change rest last).map fun last => put members part (.tables (last :: others))
    | _ => none

/-- Announces a table. It may be implied already, but not more. -/
def openTable (name : String) (members : Members) : Option Members :=
  match members.lookup name with
  | none => some (put members name (.table .headed []))
  | some (.table .implied inner) => some (put members name (.table .headed inner))
  | _ => none

/-- Announces one more table of a name. -/
def openElement (name : String) (members : Members) : Option Members :=
  match members.lookup name with
  | none => some (put members name (.tables [[]]))
  | some (.tables elements) => some (put members name (.tables ([] :: elements)))
  | _ => none

end Toml

end ModuleTyping
