import ModuleTyping.SymbolTable.Basic

/-!
# The table of functions

A symbol table of signatures, with the effect tags of each function beside it. Tags
belong to a function under its registered name: an alias shows the tags of what it
stands for, and they go when the function is deleted.
-/

namespace ModuleTyping

/-- What is known about the effects of a function. -/
inductive Effect where
  | pure
  | constexpr
  | noexcept
  deriving DecidableEq, Repr

namespace Effect

/-- All tags. -/
def all : List Effect :=
  [.pure, .constexpr, .noexcept]

/-- The order in which tags are listed. -/
def rank : Effect → Nat
  | .pure => 0
  | .constexpr => 1
  | .noexcept => 2

/-- The word for a tag. -/
def word : Effect → String
  | .pure => "pure"
  | .constexpr => "constexpr"
  | .noexcept => "noexcept"

/-- Puts a tag in its place in an ascending list, unless it is there already. -/
def insert (tag : Effect) : List Effect → List Effect
  | [] => [tag]
  | other :: rest =>
    if tag.rank < other.rank then tag :: other :: rest
    else if tag = other then other :: rest
    else other :: insert tag rest

/-- The tags in ascending order, each once. -/
def ascending (tags : List Effect) : List Effect :=
  tags.foldl (fun sorted tag => insert tag sorted) []

end Effect

/-- The signatures of functions by name, and their effect tags. -/
structure FunctionTable where
  table : SymbolTable Signature := ∅
  tags : Dict (List Effect) := ∅

namespace FunctionTable

/-- The table without functions. -/
def empty : FunctionTable := {}

instance : EmptyCollection FunctionTable := ⟨empty⟩

instance : Inhabited FunctionTable := ⟨empty⟩

/-- Registers a signature under its name. -/
def register (functions : FunctionTable) (sig : Signature) (reg : Registration) : FunctionTable :=
  { functions with table := functions.table.register sig.name sig reg }

/-- Makes `aliasName` stand for the function that `target` stands for. -/
def registerAlias (functions : FunctionTable) (aliasName target : String) :
    Except AliasError FunctionTable :=
  (functions.table.registerAlias aliasName target).map fun table => { functions with table }

/-- The entry that `name` stands for. -/
def entry? (functions : FunctionTable) (name : String) : Option (Entry Signature) :=
  functions.table.get? name

/-- The signature that `name` stands for. -/
def signature? (functions : FunctionTable) (name : String) : Option Signature :=
  (functions.entry? name).map Entry.value

/-- The name stands for a function. -/
def contains (functions : FunctionTable) (name : String) : Bool :=
  functions.table.contains name

/-- The function that `member` of `container` refers to: the one the key for that member
stands for, or else a function of that name listed in the namespace or the module that the
container names. -/
def member? (functions : FunctionTable) (container member : String) : Option (Entry Signature) :=
  match functions.table.get? (ModulePath.memberKey container member) with
  | some entry => some entry
  | none =>
    let space :=
      match ModulePath.deriveNamespace (some container) with
      | some space => functions.table.inNamespace space
      | none => []
    (space ++ functions.table.inModule container).find? (·.name == member)

/-- Replaces what is known about a function. Says whether there was such a function. -/
def updateMetadata (functions : FunctionTable) (name : String) (reg : Registration) :
    Bool × FunctionTable :=
  let (found, table) := functions.table.updateMetadata name reg
  (found, { functions with table })

/-- Deletes an alias, or a function with its aliases and tags. Says whether there was
anything to delete. -/
def delete (functions : FunctionTable) (name : String) : Bool × FunctionTable :=
  let tags := if functions.table.isAlias name then functions.tags else functions.tags.erase name
  let (found, table) := functions.table.delete name
  (found, { table, tags })

/-- The functions of a namespace, in listing order. -/
def inNamespace (functions : FunctionTable) (space : String) : List (Entry Signature) :=
  functions.table.inNamespace space

/-- The functions of a module, in listing order. -/
def inModule (functions : FunctionTable) (moduleName : String) : List (Entry Signature) :=
  functions.table.inModule moduleName

/-- All entries, in ascending order of their names. -/
def toList (functions : FunctionTable) : List (Entry Signature) :=
  functions.table.toList

/-- The effect tags of the function that `name` stands for. -/
def effects (functions : FunctionTable) (name : String) : List Effect :=
  ((functions.table.canonicalName? name).bind functions.tags.get?).getD []

/-- Adds a tag to a function. Says whether there was such a function. -/
def addEffect (functions : FunctionTable) (name : String) (tag : Effect) :
    Bool × FunctionTable :=
  match functions.table.canonicalName? name with
  | none => (false, functions)
  | some canonical =>
    let tags := (functions.tags.get? canonical).getD []
    (true, { functions with tags := functions.tags.insert canonical (tag.insert tags) })

/-- Gives a function these tags in place of its own. Says whether there was such a
function. -/
def replaceEffects (functions : FunctionTable) (name : String) (tags : List Effect) :
    Bool × FunctionTable :=
  match functions.table.canonicalName? name with
  | none => (false, functions)
  | some canonical =>
    (true, { functions with tags := functions.tags.insert canonical (Effect.ascending tags) })

end FunctionTable

end ModuleTyping
