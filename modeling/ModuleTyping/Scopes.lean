import ModuleTyping.Dict
import ModuleTyping.Ty.Basic

/-!
# Scopes

The types of the local names, scope within scope. There is always at least one scope, that
of the module, which leaving a scope never removes.
-/

namespace ModuleTyping

/-- The innermost scope and those around it, from the inside out. -/
structure Scopes where
  inner : Dict Ty := ∅
  outer : List (Dict Ty) := []

namespace Scopes

/-- The module's scope alone, without names. -/
def empty : Scopes := {}

instance : EmptyCollection Scopes := ⟨empty⟩

instance : Inhabited Scopes := ⟨empty⟩

/-- Enters a new scope. -/
def push (scopes : Scopes) : Scopes where
  inner := ∅
  outer := scopes.inner :: scopes.outer

/-- Leaves the innermost scope, unless it is the module's. -/
def pop (scopes : Scopes) : Scopes :=
  match scopes.outer with
  | [] => scopes
  | next :: outer => { inner := next, outer }

/-- Gives a name a type in the innermost scope. -/
def bind (scopes : Scopes) (name : String) (ty : Ty) : Scopes :=
  { scopes with inner := scopes.inner.insert name ty }

/-- The type a name has in the innermost scope that has it. -/
def lookup? (scopes : Scopes) (name : String) : Option Ty :=
  (scopes.inner :: scopes.outer).findSome? (·.get? name)

/-- Some scope has the name. -/
def contains (scopes : Scopes) (name : String) : Bool :=
  (scopes.lookup? name).isSome

/-- The names of all scopes, in ascending order, each once. -/
def visible (scopes : Scopes) : List String :=
  (Dict.ofList ((scopes.inner :: scopes.outer).flatMap fun scope =>
    scope.keys.map (·, ()))).keys

/-- The number of scopes. -/
def depth (scopes : Scopes) : Nat :=
  scopes.outer.length + 1

@[simp] theorem pop_push (scopes : Scopes) : scopes.push.pop = scopes := rfl

@[simp] theorem push_bind_pop (scopes : Scopes) (name : String) (ty : Ty) :
    (scopes.push.bind name ty).pop = scopes := rfl

end Scopes

end ModuleTyping
