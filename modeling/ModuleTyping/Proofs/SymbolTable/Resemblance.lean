import ModuleTyping.Proofs.Dict
import ModuleTyping.Proofs.SymbolTable.Reordering

/-!
# Tables with related values

Two tables resemble each other if they hold entries under the same names and aliases, equal
in all but their values, and those are related (`SymbolTable.Resembles`). The order in which
entries are listed plays no part in it. Look-ups by name find related values in both, and
registering related values and deleting names keeps the resemblance.
-/

namespace ModuleTyping

namespace Entry

variable {α : Type} {r : α → α → Prop} {entry entry' : Entry α}

/-- The entries differ in their values only, which are related. -/
structure Like (r : α → α → Prop) (entry entry' : Entry α) : Prop where
  rest : entry' = { entry with value := entry'.value }
  value : r entry.value entry'.value

namespace Like

theorem name (like : Like r entry entry') : entry'.name = entry.name := by
  rw [like.rest]

theorem dropAlias (like : Like r entry entry') (aliasName : String) :
    Like r (entry.dropAlias aliasName) (entry'.dropAlias aliasName) where
  rest := congrArg (·.dropAlias aliasName) like.rest
  value := like.value

theorem map_dropAlias {old old' : Option (Entry α)} (olds : Option.Rel (Like r) old old')
    (aliasName : String) :
    Option.Rel (Like r) (old.map (·.dropAlias aliasName)) (old'.map (·.dropAlias aliasName)) := by
  cases olds with
  | none => exact .none
  | some like => exact .some (like.dropAlias aliasName)

theorem registered {old old' : Option (Entry α)} (olds : Option.Rel (Like r) old old')
    (name : String) {value value' : α} (values : r value value') (reg : Registration) :
    Like r (Entry.registered old name value reg) (Entry.registered old' name value' reg) := by
  cases olds with
  | none => exact ⟨rfl, values⟩
  | some like =>
      exact ⟨congrArg (fun old => { old.relocate reg with value := value' }) like.rest, values⟩

end Like

end Entry

namespace SymbolTable

variable {α : Type} {r : α → α → Prop} {a b c : SymbolTable α}

/-- Both tables are built by edits, and hold the same entries but for values that are
related. -/
structure Resembles (r : α → α → Prop) (a b : SymbolTable α) : Prop where
  reachable : a.Reachable
  reachable' : b.Reachable
  aliases : ∀ name, a.aliases.get? name = b.aliases.get? name
  entries : ∀ key, Option.Rel (Entry.Like r) (a.entries.get? key) (b.entries.get? key)

namespace Resembles

theorem of_reordered (same : a.Reordered b) (reflexive : ∀ key entry,
    a.entries.get? key = some entry → r entry.value entry.value) : a.Resembles r b where
  reachable := same.reachable
  reachable' := same.reachable'
  aliases _ := by rw [same.aliases]
  entries key := by
    rw [← same.entries]
    cases held : a.entries.get? key with
    | none => exact .none
    | some entry => exact .some ⟨rfl, reflexive key entry held⟩

theorem symm (resembles : a.Resembles r b) :
    b.Resembles (fun value value' => r value' value) a where
  reachable := resembles.reachable'
  reachable' := resembles.reachable
  aliases name := (resembles.aliases name).symm
  entries key := by
    generalize found : a.entries.get? key = entry
    generalize found' : b.entries.get? key = entry'
    cases found ▸ found' ▸ resembles.entries key with
    | none => exact .none
    | some like =>
        refine .some ⟨?_, like.value⟩
        rw [like.rest]

/-! ### Look-ups -/

variable (resembles : a.Resembles r b)

include resembles

theorem canonicalName?_eq (name : String) : a.canonicalName? name = b.canonicalName? name := by
  unfold canonicalName? Dict.contains
  rw [isSome_eq_of_rel (resembles.entries name), resembles.aliases]

theorem contains_eq (name : String) : a.contains name = b.contains name :=
  congrArg Option.isSome (resembles.canonicalName?_eq name)

theorem get? (name : String) : Option.Rel (Entry.Like r) (a.get? name) (b.get? name) := by
  unfold SymbolTable.get?
  rw [resembles.canonicalName?_eq]
  cases b.canonicalName? name with
  | none => exact .none
  | some canonical => exact resembles.entries canonical

theorem toList : List.Forall₂ (Entry.Like r) a.toList b.toList :=
  Dict.values_related resembles.entries

/-! ### Edits -/

theorem register (name : String) {value value' : α} (values : r value value')
    (reg : Registration) :
    (a.register name value reg).Resembles r (b.register name value' reg) where
  reachable := resembles.reachable.after_register name value reg
  reachable' := resembles.reachable'.after_register name value' reg
  aliases other := by
    rw [get?_aliases_register, get?_aliases_register, resembles.aliases]
  entries key := by
    have dropped (key : String) := Entry.Like.map_dropAlias (resembles.entries key) name
    rw [resembles.reachable.consistent.get?_entries_register,
      resembles.reachable'.consistent.get?_entries_register]
    split
    · exact .some (.registered (dropped name) name values reg)
    · exact dropped key

theorem delete (name : String) :
    (a.delete name).2.Resembles r (b.delete name).2 where
  reachable := resembles.reachable.after_edit (.delete name)
  reachable' := resembles.reachable'.after_edit (.delete name)
  aliases other := by
    rw [resembles.reachable.consistent.get?_aliases_delete,
      resembles.reachable'.consistent.get?_aliases_delete, resembles.aliases]
  entries key := by
    rw [resembles.reachable.consistent.get?_entries_delete,
      resembles.reachable'.consistent.get?_entries_delete]
    split
    · exact .none
    · exact Entry.Like.map_dropAlias (resembles.entries key) name

end Resembles

end SymbolTable

namespace FunctionTable

variable {r : Signature → Signature → Prop} {a b : FunctionTable}

/-- What is listed for a container is found again in a table that resembles the one. -/
theorem exists_listedFor (resembles : a.table.Resembles r b.table) {container : String}
    {entry : Entry Signature} (listed : entry ∈ a.listedFor container) :
    ∃ entry' ∈ b.listedFor container, Entry.Like r entry entry' ∧
      b.table.entries.get? entry.name = some entry' := by
  have held := held_of_listedFor resembles.reachable listed
  have both := resembles.entries entry.name
  rw [held] at both
  generalize held' : b.table.entries.get? entry.name = found at both
  cases both with
  | @some _ entry' like =>
      have key (axis : SymbolTable.Axis) : axis.key entry' = axis.key entry := by
        rw [like.rest]
        cases axis <;> rfl
      refine ⟨entry', ?_, like, rfl⟩
      rw [mem_listedFor] at listed ⊢
      simp only [resembles.reachable.mem_listing, resembles.reachable'.mem_listing, key,
        like.name, held', true_and] at listed ⊢
      exact listed.imp (fun ⟨space, derived, _, at_space⟩ => ⟨space, derived, at_space⟩) (·.2)

theorem find?_listedFor_related (resembles : a.table.Resembles r b.table)
    (container member : String) :
    Option.Rel (Entry.Like r) ((a.listedFor container).find? (·.name == member))
      ((b.listedFor container).find? (·.name == member)) := by
  cases found : (a.listedFor container).find? (·.name == member) with
  | none =>
      cases found' : (b.listedFor container).find? (·.name == member) with
      | none => exact .none
      | some other =>
          obtain ⟨entry, listed, like, -⟩ :=
            exists_listedFor resembles.symm (List.mem_of_find?_eq_some found')
          have named := List.find?_some found'
          rw [List.find?_eq_none] at found
          exact absurd (like.name ▸ named) (found entry listed)
  | some entry =>
      obtain ⟨entry', listed', like, held'⟩ :=
        exists_listedFor resembles (List.mem_of_find?_eq_some found)
      have named : entry.name = member := by simpa using List.find?_some found
      obtain ⟨other, found'⟩ : ∃ other,
          (b.listedFor container).find? (·.name == member) = some other := by
        rw [← Option.isSome_iff_exists, List.find?_isSome]
        exact ⟨entry', listed', by simpa [like.name] using named⟩
      have named' : other.name = member := by simpa using List.find?_some found'
      have held := held_of_listedFor resembles.reachable' (List.mem_of_find?_eq_some found')
      rw [named', ← named, held'] at held
      rw [found', ← Option.some.inj held]
      exact .some like

/-- A member is found in both of two tables that resemble each other, or in neither. -/
theorem member?_related (resembles : a.table.Resembles r b.table) (container member : String) :
    Option.Rel (Entry.Like r) (a.member? container member) (b.member? container member) := by
  rw [member?_eq, member?_eq]
  generalize found : a.table.get? (ModulePath.memberKey container member) = entry
  generalize found' : b.table.get? (ModulePath.memberKey container member) = entry'
  cases found ▸ found' ▸ resembles.get? (ModulePath.memberKey container member) with
  | none =>
      rw [Option.none_or, Option.none_or]
      exact find?_listedFor_related resembles container member
  | some like => exact .some like

end FunctionTable

end ModuleTyping
