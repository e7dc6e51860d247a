import ModuleTyping.Proofs.SymbolTable.Reordering
import ModuleTyping.Proofs.SymbolTable.Resolution

/-!
# What a name was last declared as

An entry holds what the last registration of its name says and the aliases it has gathered.
`declared?` is the first part alone. Registering decides it, whatever was there before;
aliases come and go without touching it; deleting a name clears it for that name.
-/

namespace ModuleTyping

namespace Entry

variable {α : Type}

/-- The entry without its aliases. -/
def bare (entry : Entry α) : Entry α :=
  { entry with aliases := [] }

@[simp] theorem bare_addAlias (entry : Entry α) (aliasName : String) :
    (entry.addAlias aliasName).bare = entry.bare := by
  unfold addAlias
  split <;> rfl

theorem bare_registered {old : Option (Entry α)} {name : String}
    (named : ∀ entry, old = some entry → entry.name = name) (value : α) (reg : Registration) :
    (registered old name value reg).bare = make name value reg := by
  cases old with
  | none => rfl
  | some entry =>
      obtain rfl := named entry rfl
      rfl

end Entry

namespace SymbolTable

variable {α : Type} {table after : SymbolTable α}

/-- What a registered name was last declared as. -/
def declared? (table : SymbolTable α) (name : String) : Option (Entry α) :=
  (table.entries.get? name).map Entry.bare

theorem isSome_declared? (table : SymbolTable α) (name : String) :
    (table.declared? name).isSome = table.entries.contains name :=
  Option.isSome_map

theorem declared?_forgetAlias (consistent : table.Consistent) (aliasName name : String) :
    (table.forgetAlias aliasName).declared? name = table.declared? name := by
  unfold declared?
  rw [consistent.get?_entries_forgetAlias, Option.map_map]
  rfl

namespace Consistent

theorem declared?_register (consistent : table.Consistent) (name : String) (value : α)
    (reg : Registration) (other : String) : (table.register name value reg).declared? other =
      if other = name then some (.make name value reg) else table.declared? other := by
  unfold declared?
  rw [consistent.get?_entries_register]
  split
  · refine congrArg some (Entry.bare_registered ?_ value reg)
    intro entry dropped
    obtain ⟨old, held, rfl⟩ := Option.map_eq_some_iff.mp dropped
    exact (old.name_dropAlias name).trans (consistent.named held)
  · rw [Option.map_map]
    rfl

theorem declared?_registerAlias (consistent : table.Consistent) {aliasName target : String}
    (accepted : table.registerAlias aliasName target = .ok after) (name : String) :
    after.declared? name = table.declared? name := by
  obtain ⟨canonical, -, -, rfl⟩ := consistent.registerAlias_accepted accepted
  split
  · rfl
  · refine Eq.trans ?_ (declared?_forgetAlias consistent aliasName name)
    unfold declared?
    rw [get?_entries_attach]
    split
    · next same =>
      rw [same, Option.map_map]
      exact congrArg (Option.map · _) (funext fun entry => entry.bare_addAlias aliasName)
    · rfl

/-- An accepted alias stands for what its target stands for, and no other alias changes. -/
theorem get?_aliases_registerAlias (consistent : table.Consistent) {aliasName target : String}
    (accepted : table.registerAlias aliasName target = .ok after) (other : String) :
    after.aliases.get? other =
      if other = aliasName then table.canonicalName? target else table.aliases.get? other := by
  obtain ⟨canonical, resolved, -, rfl⟩ := consistent.registerAlias_accepted accepted
  rw [resolved]
  split
  · next used =>
    split
    · next same => rw [same, used]
    · rfl
  · rw [get?_aliases_attach, get?_aliases_forgetAlias]
    split <;> rfl

/-- Deleting a name that is no alias. -/
theorem declared?_delete (consistent : table.Consistent) {name : String}
    (unused : table.aliases.get? name = none) (other : String) :
    (table.delete name).2.declared? other =
      if other = name then none else table.declared? other := by
  cases held : table.entries.get? name with
  | some entry =>
      unfold declared?
      rw [(consistent.delete_of_registered held).1, Dict.get?_erase]
      split <;> rfl
  | none =>
      have unresolved : table.canonicalName? name = none :=
        (canonicalName?_of_unregistered held).trans unused
      rw [delete_of_unresolved unresolved]
      split
      · next same => rw [same, declared?, held, Option.map_none]
      · rfl

/-- Deleting a name makes no alias. -/
theorem get?_aliases_of_delete (consistent : table.Consistent) {name other target : String}
    (unused : table.aliases.get? name = none)
    (used : (table.delete name).2.aliases.get? other = some target) :
    table.aliases.get? other = some target := by
  cases held : table.entries.get? name with
  | some entry =>
      rw [(consistent.delete_of_registered held).2,
        consistent.get?_foldl_erase_aliases held] at used
      exact (Option.ite_none_left_eq_some.mp used).2
  | none =>
      have unresolved : table.canonicalName? name = none :=
        (canonicalName?_of_unregistered held).trans unused
      rwa [delete_of_unresolved unresolved] at used

end Consistent

end SymbolTable

end ModuleTyping
