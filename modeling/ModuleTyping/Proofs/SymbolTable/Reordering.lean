import ModuleTyping.Proofs.SymbolTable.Listings
import ModuleTyping.SymbolTable.Functions

/-!
# Registering in another order

Two tables that hold the same entries and aliases may still list them in different orders,
according to the order in which they were registered (`Reordered`). Registrations under
different names commute up to this: what a registration does to the dictionaries is
described name by name (`get?_entries_register`, `get?_aliases_register`), and the
descriptions commute.

No look-up of a function by name tells reordered tables apart (`Reordered.get?_eq`,
`FunctionTable.member?_eq_of_reordered`).
-/

namespace ModuleTyping

namespace Entry

variable {α : Type}

/-- The entry after a registration under its name, which keeps the aliases there were. -/
def registered (old : Option (Entry α)) (name : String) (value : α) (reg : Registration) :
    Entry α :=
  match old with
  | some old => { old.relocate reg with value := value }
  | none => make name value reg

theorem registered_dropAlias (old : Option (Entry α)) (name aliasName : String) (value : α)
    (reg : Registration) : registered (old.map (·.dropAlias aliasName)) name value reg =
      (registered old name value reg).dropAlias aliasName := by
  cases old <;> rfl

theorem dropAlias_comm (entry : Entry α) (aliasName other : String) :
    (entry.dropAlias aliasName).dropAlias other = (entry.dropAlias other).dropAlias aliasName := by
  simp only [dropAlias, List.filter_filter, Bool.and_comm]

end Entry

namespace SymbolTable

variable {α : Type} {table a b c : SymbolTable α}

/-! ### What a registration does -/

theorem get?_aliases_register (table : SymbolTable α) (name other : String) (value : α)
    (reg : Registration) : (table.register name value reg).aliases.get? other =
      if other = name then none else table.aliases.get? other := by
  rw [← get?_aliases_forgetAlias]
  unfold register
  dsimp only
  split <;> rfl

/-- The entry of the name is replaced, and the name is taken off every list of aliases. -/
theorem Consistent.get?_entries_register (consistent : table.Consistent) (name key : String)
    (value : α) (reg : Registration) : (table.register name value reg).entries.get? key =
      if key = name then
        some (Entry.registered ((table.entries.get? name).map (·.dropAlias name)) name value reg)
      else (table.entries.get? key).map (·.dropAlias name) := by
  have entries := consistent.get?_entries_forgetAlias name
  have stored : (table.register name value reg).entries =
      (table.forgetAlias name).entries.insert name
        (Entry.registered ((table.forgetAlias name).entries.get? name) name value reg) := by
    unfold SymbolTable.register
    dsimp only
    split
    · next old held =>
        obtain rfl := (consistent.forgetAlias name).named held
        rw [held]
        rfl
    · next fresh =>
        rw [fresh]
        rfl
  rw [stored, Dict.get?_insert, entries, entries]

/-- A registration puts the value under the name, and the other values stay. -/
theorem Consistent.value_register (consistent : table.Consistent) (name key : String) (value : α)
    (reg : Registration) : ((table.register name value reg).entries.get? key).map Entry.value =
      if key = name then some value else (table.entries.get? key).map Entry.value := by
  rw [consistent.get?_entries_register]
  split
  · unfold Entry.registered
    split <;> rfl
  · rw [Option.map_map]
    rfl

/-! ### What a deletion does -/

/-- The entry of the name is gone, and the name is taken off every list of aliases. -/
theorem Consistent.get?_entries_delete (consistent : table.Consistent) (name key : String) :
    (table.delete name).2.entries.get? key =
      if key = name then none else (table.entries.get? key).map (·.dropAlias name) := by
  cases used : table.aliases.get? name with
  | some target =>
      rw [delete_of_alias used, consistent.get?_entries_forgetAlias]
      split
      · next same => rw [same, consistent.free used, Option.map_none]
      · rfl
  | none =>
      -- Where the name is no alias, no list has it.
      have unlisted : (table.entries.get? key).map (·.dropAlias name) = table.entries.get? key := by
        have same := consistent.get?_entries_forgetAlias name key
        rw [SymbolTable.forgetAlias, used] at same
        exact same.symm
      rw [unlisted]
      cases held : table.entries.get? name with
      | some entry => rw [(consistent.delete_of_registered held).1, Dict.get?_erase]
      | none =>
          have kept : (table.delete name).2 = table := by
            simp only [SymbolTable.delete, used, held]
          rw [kept]
          split
          · next same => rw [same, held]
          · rfl

/-- The name and the aliases that stand for it are aliases no more. -/
theorem Consistent.get?_aliases_delete (consistent : table.Consistent) (name other : String) :
    (table.delete name).2.aliases.get? other =
      if other = name ∨ table.aliases.get? other = some name then none
      else table.aliases.get? other := by
  cases used : table.aliases.get? name with
  | some target =>
      -- A name that is an alias itself has none.
      have unaimed : table.aliases.get? other ≠ some name := by
        intro aimed
        obtain ⟨entry, held, -⟩ := consistent.listed.mp aimed
        rw [consistent.free used] at held
        cases held
      rw [delete_of_alias used, get?_aliases_forgetAlias]
      simp [unaimed]
  | none =>
      have same : other = name → table.aliases.get? other = none := fun same => same ▸ used
      cases held : table.entries.get? name with
      | some entry =>
          rw [(consistent.delete_of_registered held).2,
            consistent.get?_foldl_erase_aliases held]
          grind
      | none =>
          have unaimed : table.aliases.get? other ≠ some name := by
            intro aimed
            obtain ⟨entry, held', -⟩ := consistent.listed.mp aimed
            rw [held] at held'
            cases held'
          have kept : (table.delete name).2 = table := by
            simp only [SymbolTable.delete, used, held]
          rw [kept]
          grind

/-! ### Tables up to the order of listings -/

/-- Tables built by edits that hold the same entries and aliases. -/
structure Reordered (a b : SymbolTable α) : Prop where
  reachable : a.Reachable
  reachable' : b.Reachable
  entries : a.entries = b.entries
  aliases : a.aliases = b.aliases

namespace Reordered

theorem refl (reachable : table.Reachable) : table.Reordered table :=
  ⟨reachable, reachable, rfl, rfl⟩

theorem trans (first : a.Reordered b) (second : b.Reordered c) : a.Reordered c :=
  ⟨first.reachable, second.reachable', first.entries.trans second.entries,
    first.aliases.trans second.aliases⟩

theorem register (same : a.Reordered b) (name : String) (value : α) (reg : Registration) :
    (a.register name value reg).Reordered (b.register name value reg) where
  reachable := same.reachable.after_register name value reg
  reachable' := same.reachable'.after_register name value reg
  entries := by
    refine Dict.ext_get? fun key => ?_
    rw [same.reachable.consistent.get?_entries_register,
      same.reachable'.consistent.get?_entries_register, same.entries]
  aliases := by
    refine Dict.ext_get? fun other => ?_
    rw [get?_aliases_register, get?_aliases_register, same.aliases]

end Reordered

/-- Registrations under different names commute, but for the listings. -/
theorem Reachable.register_comm (reachable : table.Reachable) {name other : String}
    (different : name ≠ other) (value value' : α) (reg reg' : Registration) :
    ((table.register name value reg).register other value' reg').Reordered
      ((table.register other value' reg').register name value reg) := by
  have first := reachable.after_register name value reg
  have first' := reachable.after_register other value' reg'
  refine ⟨first.after_register .., first'.after_register .., Dict.ext_get? fun key => ?_,
    Dict.ext_get? fun aliasName => ?_⟩
  · refine (first.consistent.get?_entries_register other key value' reg').trans
      (Eq.trans ?_ (first'.consistent.get?_entries_register name key value reg).symm)
    simp only [reachable.consistent.get?_entries_register]
    by_cases isName : key = name
    · subst isName
      simp only [if_neg different, if_true, Option.map_some, Option.map_map]
      rw [← Entry.registered_dropAlias, Option.map_map]
      simp only [Function.comp_def, Entry.dropAlias_comm _ other key]
    · by_cases isOther : key = other
      · subst isOther
        simp only [if_neg isName, if_true, Option.map_some, Option.map_map]
        rw [← Entry.registered_dropAlias, Option.map_map]
        simp only [Function.comp_def, Entry.dropAlias_comm _ key name]
      · simp only [if_neg isName, if_neg isOther, Option.map_map, Function.comp_def,
          Entry.dropAlias_comm _ other name]
  · simp only [get?_aliases_register]
    split <;> split <;> rfl

/-! ### Look-ups -/

namespace Reordered

theorem canonicalName?_eq (same : a.Reordered b) (name : String) :
    a.canonicalName? name = b.canonicalName? name := by
  simp only [canonicalName?, same.entries, same.aliases]

theorem get?_eq (same : a.Reordered b) (name : String) : a.get? name = b.get? name := by
  simp only [get?, same.canonicalName?_eq, same.entries]

theorem mem_listing_iff (same : a.Reordered b) (axis : Axis) (key : String) (entry : Entry α) :
    entry ∈ a.listing axis key ↔ entry ∈ b.listing axis key := by
  rw [same.reachable.mem_listing, same.reachable'.mem_listing, same.entries]

end Reordered

end SymbolTable

namespace FunctionTable

/-- The functions listed for a container, among which a member is searched. -/
def listedFor (functions : FunctionTable) (container : String) : List (Entry Signature) :=
  (match ModulePath.deriveNamespace (some container) with
    | some space => functions.table.listing .space space
    | none => []) ++ functions.table.listing .module container

theorem member?_eq (functions : FunctionTable) (container member : String) :
    functions.member? container member =
      (functions.table.get? (ModulePath.memberKey container member)).or
        ((functions.listedFor container).find? (·.name == member)) := by
  unfold member? listedFor
  generalize functions.table.get? (ModulePath.memberKey container member) = found
  generalize ModulePath.deriveNamespace (some container) = space
  cases found <;> cases space <;> rfl

theorem mem_listedFor {functions : FunctionTable} {container : String} {entry : Entry Signature} :
    entry ∈ functions.listedFor container ↔
      (∃ space, ModulePath.deriveNamespace (some container) = some space ∧
        entry ∈ functions.table.listing .space space) ∨
      entry ∈ functions.table.listing .module container := by
  unfold listedFor
  rw [List.mem_append]
  cases ModulePath.deriveNamespace (some container) <;> simp

theorem held_of_listedFor {functions : FunctionTable} (reachable : functions.table.Reachable)
    {container : String} {entry : Entry Signature}
    (listed : entry ∈ functions.listedFor container) :
    functions.table.entries.get? entry.name = some entry := by
  obtain ⟨space, -, listed⟩ | listed := mem_listedFor.mp listed
  · exact (reachable.mem_listing.mp listed).1
  · exact (reachable.mem_listing.mp listed).1

variable {a b : FunctionTable}

/-- A member is found in a reordered table where it was found before. -/
theorem member?_eq_of_reordered (same : a.table.Reordered b.table) (container member : String) :
    a.member? container member = b.member? container member := by
  have listed (entry : Entry Signature) :
      entry ∈ a.listedFor container ↔ entry ∈ b.listedFor container := by
    simp only [mem_listedFor, same.mem_listing_iff]
  have held {entry : Entry Signature} (found : entry ∈ a.listedFor container) :=
    held_of_listedFor same.reachable found
  have apart : ∀ entry ∈ a.listedFor container, ∀ other ∈ a.listedFor container,
      entry.name = other.name → entry = other := by
    intro entry found other found' named
    have same := held found
    rw [named, held found'] at same
    exact (Option.some.inj same).symm
  rw [member?_eq, member?_eq, same.get?_eq, SymbolTable.find?_named_eq listed apart]

end FunctionTable

end ModuleTyping
