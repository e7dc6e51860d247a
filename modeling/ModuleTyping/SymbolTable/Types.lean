import ModuleTyping.SymbolTable.Basic
import ModuleTyping.Ty.Names

/-!
# The table of types

A symbol table of declared types that never lacks the primitive ones.
-/

namespace ModuleTyping

/-- The declared types by name. -/
structure TypeTable where
  table : SymbolTable TypeInfo

namespace TypeTable

/-- The table that holds the primitive types only. -/
def primitives : TypeTable where
  table := primitiveNames.foldl
    (fun table name => table.register name { name, ty := .primitive name } {}) ∅

instance : Inhabited TypeTable := ⟨primitives⟩

/-- Registers a declared type under its name. -/
def register (types : TypeTable) (info : TypeInfo) (reg : Registration) : TypeTable :=
  ⟨types.table.register info.name info reg⟩

/-- Makes `aliasName` stand for the type that `target` stands for. -/
def registerAlias (types : TypeTable) (aliasName target : String) : Except AliasError TypeTable :=
  (types.table.registerAlias aliasName target).map TypeTable.mk

/-- The entry that `name` stands for. -/
def entry? (types : TypeTable) (name : String) : Option (Entry TypeInfo) :=
  types.table.get? name

/-- The declaration that `name` stands for. -/
def info? (types : TypeTable) (name : String) : Option TypeInfo :=
  (types.entry? name).map Entry.value

/-- The type that `name` stands for. -/
def lookup? (types : TypeTable) (name : String) : Option Ty :=
  (types.info? name).map TypeInfo.ty

/-- The type of a field of the record that `name` stands for. -/
def member? (types : TypeTable) (name member : String) : Option Ty := do
  let ty ← types.lookup? name
  let fields ← ty.fields?
  fields.lookup member

/-- Replaces what is known about a type. Says whether there was such a type. -/
def updateMetadata (types : TypeTable) (name : String) (reg : Registration) : Bool × TypeTable :=
  let (found, table) := types.table.updateMetadata name reg
  (found, ⟨table⟩)

/-- Deletes a type or an alias. Says whether there was anything to delete. -/
def delete (types : TypeTable) (name : String) : Bool × TypeTable :=
  let (found, table) := types.table.delete name
  (found, ⟨table⟩)

/-- The types of a namespace, in listing order. -/
def inNamespace (types : TypeTable) (space : String) : List (Entry TypeInfo) :=
  types.table.inNamespace space

/-- The types of a module in listing order, all of them or the exported ones only. -/
def inModule (types : TypeTable) (moduleName : String) (exportedOnly : Bool) :
    List (Entry TypeInfo) :=
  (types.table.inModule moduleName).filter fun entry => !exportedOnly || entry.exported

/-- All entries, in ascending order of their names. -/
def toList (types : TypeTable) : List (Entry TypeInfo) :=
  types.table.toList

end TypeTable

end ModuleTyping
