import ModuleTyping.Dict
import ModuleTyping.Fault
import ModuleTyping.ModulePath

/-!
# Symbol tables

A symbol table maps each name to one entry, and any number of aliases to names. Every
entry knows the module that owns it and the namespace it belongs to, and two indexes
list the entries of each module and of each namespace, the one registered or updated
last at the end.

Looking up never fails: a name that is not there gives nothing, and what that means is
for the caller to say.
-/

namespace ModuleTyping

/-- Where a symbol comes from and who may see it. -/
structure Registration where
  moduleName : Option String := none
  /-- A namespace given outright, in place of the one derived from the module's name. -/
  givenNamespace : Option String := none
  exported : Bool := false
  external : Bool := false
  origin : Origin := none

/-- The namespace of a symbol that is registered this way. -/
def Registration.resolvedNamespace (reg : Registration) : Option String :=
  reg.givenNamespace <|> ModulePath.deriveNamespace reg.moduleName

/-- A registered symbol, what is known about it, and the aliases that stand for it in the
order they were made. -/
structure Entry (α : Type) where
  name : String
  value : α
  moduleName : Option String
  namespaceName : Option String
  exported : Bool
  external : Bool
  origin : Origin
  aliases : List String

namespace Entry

variable {α : Type}

/-- The name within its namespace. -/
def qualifiedName (entry : Entry α) : String :=
  ModulePath.qualify entry.namespaceName entry.name

/-- A symbol that is registered for the first time, without aliases. -/
def make (name : String) (value : α) (reg : Registration) : Entry α where
  name := name
  value := value
  moduleName := reg.moduleName
  namespaceName := reg.resolvedNamespace
  exported := reg.exported
  external := reg.external
  origin := reg.origin
  aliases := []

/-- Replaces all that a registration says and keeps the rest. -/
def relocate (entry : Entry α) (reg : Registration) : Entry α :=
  { entry with
    moduleName := reg.moduleName
    namespaceName := reg.resolvedNamespace
    exported := reg.exported
    external := reg.external
    origin := reg.origin }

/-- Takes `aliasName` off the list of aliases. -/
def dropAlias (entry : Entry α) (aliasName : String) : Entry α :=
  { entry with aliases := entry.aliases.filter (· ≠ aliasName) }

/-- Puts `aliasName` at the end of the list of aliases, unless it is there already. -/
def addAlias (entry : Entry α) (aliasName : String) : Entry α :=
  if aliasName ∈ entry.aliases then entry
  else { entry with aliases := entry.aliases ++ [aliasName] }

end Entry

/-- Names listed under keys, each list in the order of listing. -/
abbrev Listing := Dict (List String)

namespace Listing

/-- The names listed under `key`. -/
def under (index : Listing) (key : String) : List String :=
  (index.get? key).getD []

/-- Lists `name` last under `key`, unless it is listed there already; without a key it is
listed nowhere. -/
def list (index : Listing) (key : Option String) (name : String) : Listing :=
  match key with
  | none => index
  | some key =>
    let names := index.under key
    index.insert key (if name ∈ names then names else names ++ [name])

/-- Takes `name` off the list under `key`, and the key with it once its list is empty. -/
def unlist (index : Listing) (key : Option String) (name : String) : Listing :=
  match key with
  | none => index
  | some key =>
    match (index.under key).filter (· ≠ name) with
    | [] => index.erase key
    | names => index.insert key names

end Listing

/-- Entries by name, aliases, and the listings of modules and namespaces. -/
structure SymbolTable (α : Type) where
  entries : Dict (Entry α) := ∅
  aliases : Dict String := ∅
  byNamespace : Listing := Dict.empty
  byModule : Listing := Dict.empty

namespace SymbolTable

variable {α : Type}

/-- The table without symbols. -/
def empty : SymbolTable α := {}

instance : EmptyCollection (SymbolTable α) := ⟨empty⟩

/-- The registered name that `name` stands for. -/
def canonicalName? (table : SymbolTable α) (name : String) : Option String :=
  if table.entries.contains name then some name else table.aliases.get? name

/-- The entry that `name` stands for. -/
def get? (table : SymbolTable α) (name : String) : Option (Entry α) :=
  (table.canonicalName? name).bind table.entries.get?

/-- The name stands for an entry. -/
def contains (table : SymbolTable α) (name : String) : Bool :=
  (table.canonicalName? name).isSome

/-- The name is an alias. -/
def isAlias (table : SymbolTable α) (name : String) : Bool :=
  table.aliases.contains name

/-- The aliases of the entry that `name` stands for. -/
def aliasesFor (table : SymbolTable α) (name : String) : List String :=
  ((table.get? name).map Entry.aliases).getD []

/-- Takes an entry out of the listings it stands in. -/
def unlistEntry (table : SymbolTable α) (entry : Entry α) : SymbolTable α :=
  { table with
    byNamespace := table.byNamespace.unlist entry.namespaceName entry.name
    byModule := table.byModule.unlist entry.moduleName entry.name }

/-- Stores an entry under its name and lists it last in its module and namespace. -/
def store (table : SymbolTable α) (entry : Entry α) : SymbolTable α :=
  { table with
    entries := table.entries.insert entry.name entry
    byNamespace := table.byNamespace.list entry.namespaceName entry.name
    byModule := table.byModule.list entry.moduleName entry.name }

/-- Forgets that `aliasName` stands for `target`. -/
def detach (table : SymbolTable α) (aliasName target : String) : SymbolTable α :=
  { table with
    entries := table.entries.modify target (·.dropAlias aliasName)
    aliases := table.aliases.erase aliasName }

/-- A name that is registered is no longer an alias. -/
def forgetAlias (table : SymbolTable α) (name : String) : SymbolTable α :=
  match table.aliases.get? name with
  | some target => table.detach name target
  | none => table

/-- Registers `name`. Registering again replaces the value and all that the registration
says, keeps the aliases, and moves the entry to its new place in the listings. -/
def register (table : SymbolTable α) (name : String) (value : α) (reg : Registration) :
    SymbolTable α :=
  let table := table.forgetAlias name
  match table.entries.get? name with
  | some old => (table.unlistEntry old).store { old.relocate reg with value := value }
  | none => table.store (Entry.make name value reg)

/-- Makes `aliasName` stand for what `target` stands for, whatever it stood for before. -/
def registerAlias (table : SymbolTable α) (aliasName target : String) :
    Except AliasError (SymbolTable α) :=
  match table.canonicalName? target with
  | none => .error (.unknownTarget aliasName target)
  | some canonical =>
    if table.entries.contains aliasName then .error (.nameTaken aliasName)
    else
      let entries :=
        match table.aliases.get? aliasName with
        | some previous =>
          if previous = canonical then table.entries
          else table.entries.modify previous (·.dropAlias aliasName)
        | none => table.entries
      .ok { table with
        entries := entries.modify canonical (·.addAlias aliasName)
        aliases := table.aliases.insert aliasName canonical }

/-- Changes the value of the entry that `name` stands for. -/
def modifyValue (table : SymbolTable α) (name : String) (f : α → α) : SymbolTable α :=
  match table.canonicalName? name with
  | none => table
  | some canonical =>
    { table with
      entries := table.entries.modify canonical fun entry =>
        { entry with value := f entry.value } }

/-- Replaces what is known about the entry that `name` stands for, and moves it to its new
place in the listings. Says whether there was such an entry. -/
def updateMetadata (table : SymbolTable α) (name : String) (reg : Registration) :
    Bool × SymbolTable α :=
  match table.get? name with
  | some entry => (true, (table.unlistEntry entry).store (entry.relocate reg))
  | none => (false, table)

/-- Deletes an alias, or an entry together with its aliases. Says whether there was
anything to delete. -/
def delete (table : SymbolTable α) (name : String) : Bool × SymbolTable α :=
  match table.aliases.get? name with
  | some target => (true, table.detach name target)
  | none =>
    match table.entries.get? name with
    | some entry =>
      let table := table.unlistEntry entry
      (true, { table with
        entries := table.entries.erase name
        aliases := entry.aliases.foldl Dict.erase table.aliases })
    | none => (false, table)

/-- The entries of a namespace, in listing order. -/
def inNamespace (table : SymbolTable α) (space : String) : List (Entry α) :=
  (table.byNamespace.under space).filterMap table.entries.get?

/-- The entries of a module, in listing order. -/
def inModule (table : SymbolTable α) (moduleName : String) : List (Entry α) :=
  (table.byModule.under moduleName).filterMap table.entries.get?

/-- All entries, in ascending order of their names. -/
def toList (table : SymbolTable α) : List (Entry α) :=
  table.entries.values

/-- The registered names, in ascending order. -/
def names (table : SymbolTable α) : List String :=
  table.toList.map Entry.name

/-- The number of entries. -/
def size (table : SymbolTable α) : Nat :=
  table.entries.size

end SymbolTable

end ModuleTyping
