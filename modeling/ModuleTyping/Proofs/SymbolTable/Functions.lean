import ModuleTyping.Proofs.SymbolTable.Chronology
import ModuleTyping.Proofs.SymbolTable.Reordering

/-!
# Tables of functions that edits build

A table of functions is a symbol table with effect tags beside it. Of the edits that a caller
may ask of it (`FunctionTable.Edit`), those of tags leave the symbol table alone and the
others edit it, so the symbol table inside is one that edits build (`table_built`), and what
holds of every reachable symbol table holds there.

Looking up a member of a container searches the listing of a namespace and then that of a
module. As the listings are exact and no two functions have the same name, the search finds
what a look-up by name finds, if that function is of the container (`find?_listedFor`).
-/

namespace ModuleTyping

open ModulePath (memberKey deriveNamespace)

/-- The entry is of the namespace that the name of the container gives, or of the module of
that name. -/
def Entry.IsOf {α : Type} (container : String) (entry : Entry α) : Prop :=
  (∃ space ∈ deriveNamespace (some container), entry.namespaceName = some space) ∨
    entry.moduleName = some container

instance {α : Type} (container : String) (entry : Entry α) :
    Decidable (entry.IsOf container) :=
  inferInstanceAs (Decidable (_ ∨ _))

namespace FunctionTable

/-- A change that a caller may ask of a table of functions. -/
inductive Edit where
  | register (sig : Signature) (reg : Registration)
  | registerAlias (aliasName target : String)
  | updateMetadata (name : String) (reg : Registration)
  | delete (name : String)
  | clear
  | addEffect (name : String) (tag : Effect)
  | replaceEffects (name : String) (tags : List Effect)

/-- The table after an edit. An alias that is refused leaves the table as it was. -/
def edited (functions : FunctionTable) : Edit → FunctionTable
  | .register sig reg => functions.register sig reg
  | .registerAlias aliasName target =>
    match functions.registerAlias aliasName target with
    | .ok after => after
    | .error _ => functions
  | .updateMetadata name reg => (functions.updateMetadata name reg).2
  | .delete name => (functions.delete name).2
  | .clear => ∅
  | .addEffect name tag => (functions.addEffect name tag).2
  | .replaceEffects name tags => (functions.replaceEffects name tags).2

/-- The table that a sequence of edits builds. -/
def built (edits : List Edit) : FunctionTable :=
  edits.foldl edited ∅

theorem built_concat (edits : List Edit) (edit : Edit) :
    built (edits ++ [edit]) = (built edits).edited edit := by
  simp [built]

/-! ### The symbol table inside -/

/-- The edits of the symbol table that an edit comes to. -/
def Edit.inner : Edit → List (SymbolTable.Edit Signature)
  | .register sig reg => [.register sig.name sig reg]
  | .registerAlias aliasName target => [.registerAlias aliasName target]
  | .updateMetadata name reg => [.updateMetadata name reg]
  | .delete name => [.delete name]
  | .clear => [.clear]
  | .addEffect _ _ => []
  | .replaceEffects _ _ => []

theorem table_edited (functions : FunctionTable) (edit : Edit) :
    (functions.edited edit).table = edit.inner.foldl SymbolTable.edited functions.table := by
  cases edit with
  | registerAlias aliasName target =>
      simp only [edited, registerAlias, Edit.inner, List.foldl_cons, List.foldl_nil,
        SymbolTable.edited]
      cases functions.table.registerAlias aliasName target with
      | ok after => rfl
      | error reason => rfl
  | addEffect name tag =>
      simp only [edited, addEffect]
      split <;> rfl
  | replaceEffects name tags =>
      simp only [edited, replaceEffects]
      split <;> rfl
  | _ => rfl

/-- The symbol table inside is built by the edits that the edits of the whole come to. -/
theorem table_built (edits : List Edit) :
    (built edits).table = SymbolTable.built (edits.flatMap Edit.inner) := by
  induction edits using List.reverseRecOn with
  | nil => rfl
  | append_singleton edits edit ih =>
      rw [built_concat, table_edited, ih, List.flatMap_append, SymbolTable.built,
        SymbolTable.built, List.foldl_append, List.flatMap_singleton]

theorem reachable_table_built (edits : List Edit) : (built edits).table.Reachable :=
  table_built edits ▸ SymbolTable.reachable_built _

/-! ### Members -/

/-- The functions listed for a container are those that are of it. -/
theorem mem_listedFor_iff {functions : FunctionTable} (reachable : functions.table.Reachable)
    {container : String} {entry : Entry Signature} :
    entry ∈ functions.listedFor container ↔
      functions.table.entries.get? entry.name = some entry ∧ entry.IsOf container := by
  simp only [mem_listedFor, reachable.mem_listing, Entry.IsOf, SymbolTable.Axis.key,
    Option.mem_def]
  constructor
  · rintro (⟨space, derived, held, there⟩ | ⟨held, there⟩)
    · exact ⟨held, .inl ⟨space, derived, there⟩⟩
    · exact ⟨held, .inr there⟩
  · rintro ⟨held, ⟨space, derived, there⟩ | there⟩
    · exact .inl ⟨space, derived, held, there⟩
    · exact .inr ⟨held, there⟩

/-- Searching what is listed for a container is looking up the name and asking whether the
function is of the container. -/
theorem find?_listedFor {functions : FunctionTable} (reachable : functions.table.Reachable)
    (container member : String) :
    (functions.listedFor container).find? (·.name == member) =
      (functions.table.entries.get? member).filter (·.IsOf container) := by
  refine Option.ext fun entry => ?_
  rw [Option.filter_eq_some_iff, decide_eq_true_iff]
  constructor
  · intro found
    have named : entry.name = member := by simpa using List.find?_some found
    obtain ⟨held, isOf⟩ := (mem_listedFor_iff reachable).mp (List.mem_of_find?_eq_some found)
    exact ⟨named ▸ held, isOf⟩
  · rintro ⟨held, isOf⟩
    have named : entry.name = member := reachable.consistent.named held
    have listed : entry ∈ functions.listedFor container :=
      (mem_listedFor_iff reachable).mpr ⟨named ▸ held, isOf⟩
    obtain ⟨other, found⟩ : ∃ other,
        (functions.listedFor container).find? (·.name == member) = some other := by
      rw [← Option.isSome_iff_exists, List.find?_isSome]
      exact ⟨entry, listed, by simpa using named⟩
    -- Whatever the search meets first has the same name, and so is the same entry.
    have named' : other.name = member := by simpa using List.find?_some found
    have held' := held_of_listedFor reachable (List.mem_of_find?_eq_some found)
    rw [named', held] at held'
    rw [found, held']

/-- In every table of functions that edits build, the member of a container is what the key
of the member stands for, if it stands for anything, and else the function that is registered
under the member's own name, if it is of the namespace or the module that the container names.
There is no other way to find one. -/
theorem member_by_key_or_by_name (edits : List Edit) (container member : String) :
    let functions := built edits
    functions.member? container member =
      (functions.entry? (memberKey container member)).or
        ((functions.table.entries.get? member).filter (·.IsOf container)) := by
  intro functions
  rw [member?_eq, find?_listedFor (reachable_table_built edits), entry?]

-- Another spelling of the path gives the same namespace; an alias is not a name of a member.
example :
    let sig : Signature := { name := "area", params := [], result := .i32, typeParams := [] }
    let functions := built
      [.register sig { moduleName := some "Geo/Shapes" }, .registerAlias "size" "area"]
    ((functions.member? "geo:shapes" "area").map Entry.name,
      (functions.member? "geo:shapes" "size").map Entry.name) = (some "area", none) := by
  decide +kernel

end FunctionTable

end ModuleTyping
