import ModuleTyping.Text.Blank
import ModuleTyping.Text.Lower

/-!
# Module names and qualified names

A module is named by a path whose segments are separated by slashes or colons. The
path gives the namespace under which the module's symbols are listed, the short name
under which its members are reached, and the keys that import makes for them.
-/

namespace ModuleTyping.ModulePath

/-- The module name that has no namespace of its own. -/
def entryModule : String := "main"

/-- Slashes and colons divide a module path. -/
def isSeparator (c : Char) : Bool :=
  c == '/' || c == ':'

/-- The pieces of a path between separators, the empty ones included. -/
def pieces : List Char → List (List Char)
  | [] => [[]]
  | c :: rest =>
    if isSeparator c then [] :: pieces rest
    else
      match pieces rest with
      | [] => [[c]]
      | piece :: others => (c :: piece) :: others

/-- The segments of a path: its nonempty pieces. -/
def segments (path : String) : List (List Char) :=
  (pieces path.toList).filter fun piece => !piece.isEmpty

/-- The namespace of a module: its segments in small letters, joined by double colons.
The entry module, and a name that holds no segment, have none. -/
def deriveNamespace (moduleName : Option String) : Option String :=
  match moduleName with
  | none => none
  | some name =>
    let name := String.ofList (Text.trim name.toList)
    if name = "" ∨ name = entryModule then none
    else
      match segments name with
      | [] => none
      | parts => some ("::".intercalate (parts.map fun part => String.ofList (Text.lowercase part)))

/-- A name within a namespace; without one, or in the empty one, the name alone. -/
def qualify (space : Option String) (name : String) : String :=
  match space with
  | none => name
  | some "" => name
  | some space => space ++ "::" ++ name

/-- The key of a member that is reached through its container. -/
def memberKey (container member : String) : String :=
  container ++ "." ++ member

/-- The keys under which an imported member can be reached: through the module's own
name, and through the name it was imported as, when that is another. -/
def qualifiedAliases (member moduleName : String) (importedAs : Option String) : List String :=
  let own := memberKey moduleName member
  match importedAs with
  | none => [own]
  | some "" => [own]
  | some other => if other = moduleName then [own] else [own, memberKey other member]

/-- The last segment of a module path, or the whole of a path without segments. -/
def shortName (path : String) : String :=
  match (segments path).getLast? with
  | some segment => String.ofList segment
  | none => path

end ModuleTyping.ModulePath
