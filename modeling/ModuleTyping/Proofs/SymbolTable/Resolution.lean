import ModuleTyping.Proofs.SymbolTable.Consistency

/-!
# What each edit does to name resolution

A name stands for itself if it is registered and for the target of its alias otherwise.
For each edit of a consistent table, the theorems below give the whole resolution
function afterwards in terms of the one before. Deleting a registered name walks the
entry's list of aliases and not the alias dictionary; that it makes exactly the names
that stood for the entry unresolved rests on the agreement of the two.
-/

namespace ModuleTyping

namespace SymbolTable

variable {α : Type} {table : SymbolTable α}

theorem canonicalName?_of_registered {name : String}
    (registered : table.entries.contains name = true) : table.canonicalName? name = some name :=
  if_pos registered

theorem get?_of_held {name : String} {entry : Entry α}
    (held : table.entries.get? name = some entry) : table.get? name = some entry := by
  have registered : table.entries.contains name = true := by rw [Dict.contains, held]; rfl
  rw [get?, canonicalName?_of_registered registered, Option.bind_some, held]

theorem canonicalName?_of_unregistered {name : String}
    (unregistered : table.entries.get? name = none) :
    table.canonicalName? name = table.aliases.get? name := by
  simp [canonicalName?, Dict.contains, unregistered]

/-- Resolution depends on which names are registered and on the aliases only. -/
theorem canonicalName?_congr {after : SymbolTable α} {name : String}
    (entries : (after.entries.get? name).isSome = (table.entries.get? name).isSome)
    (aliases : after.aliases.get? name = table.aliases.get? name) :
    after.canonicalName? name = table.canonicalName? name := by
  unfold canonicalName? Dict.contains
  rw [entries, aliases]

theorem Stores.canonicalName? {entry : Entry α} {after : SymbolTable α}
    (stores : table.Stores entry after) (name : String) :
    after.canonicalName? name =
      if name = entry.name then some entry.name else table.canonicalName? name := by
  by_cases same : name = entry.name
  · rw [if_pos same, same]
    apply canonicalName?_of_registered
    simp [Dict.contains, stores.entries]
  · rw [if_neg same]
    apply canonicalName?_congr
    · rw [stores.entries, Dict.get?_insert, if_neg same]
    · rw [stores.aliases]

/-- Storing an entry anew under a registered name changes no resolution. -/
theorem Stores.canonicalName?_of_registered {entry : Entry α} {after : SymbolTable α}
    (stores : table.Stores entry after) (registered : table.entries.contains entry.name = true)
    (name : String) : after.canonicalName? name = table.canonicalName? name := by
  rw [stores.canonicalName?]
  split
  · next same => rw [same, SymbolTable.canonicalName?_of_registered registered]
  · rfl

theorem canonicalName?_attach {aliasName target : String}
    (unregistered : table.entries.get? aliasName = none) (name : String) :
    (table.attach aliasName target).canonicalName? name =
      if name = aliasName then some target else table.canonicalName? name := by
  have registered (key : String) :
      ((table.attach aliasName target).entries.get? key).isSome =
        (table.entries.get? key).isSome := by
    rw [get?_entries_attach]
    split
    · next same => rw [same, Option.isSome_map]
    · rfl
  by_cases same : name = aliasName
  · have free : (table.attach aliasName target).entries.get? aliasName = none := by
      simpa [unregistered] using registered aliasName
    rw [if_pos same, same, canonicalName?_of_unregistered free, get?_aliases_attach, if_pos rfl]
  · rw [if_neg same]
    apply canonicalName?_congr (registered name)
    rw [get?_aliases_attach, if_neg same]

/-- There is nothing to delete under a name that stands for nothing. -/
theorem delete_of_unresolved {name : String} (unresolved : table.canonicalName? name = none) :
    table.delete name = (false, table) := by
  have unregistered : table.entries.get? name = none := by
    rw [← Option.not_isSome_iff_eq_none]
    intro registered
    rw [canonicalName?_of_registered registered] at unresolved
    cases unresolved
  rw [canonicalName?_of_unregistered unregistered] at unresolved
  simp only [delete, unresolved, unregistered]

namespace Consistent

theorem canonicalName?_forgetAlias_of_ne (consistent : table.Consistent)
    {aliasName name : String} (different : name ≠ aliasName) :
    (table.forgetAlias aliasName).canonicalName? name = table.canonicalName? name := by
  apply canonicalName?_congr
  · rw [consistent.get?_entries_forgetAlias, Option.isSome_map]
  · rw [get?_aliases_forgetAlias, if_neg different]

theorem canonicalName?_register (consistent : table.Consistent) (name : String) (value : α)
    (reg : Registration) (other : String) :
    (table.register name value reg).canonicalName? other =
      if other = name then some name else table.canonicalName? other := by
  obtain ⟨entry, rfl, stores⟩ := consistent.register_stores name value reg
  rw [stores.canonicalName?]
  split
  · rfl
  · next different => exact consistent.canonicalName?_forgetAlias_of_ne different

theorem canonicalName?_registerAlias (consistent : table.Consistent)
    {aliasName target : String} {after : SymbolTable α}
    (accepted : table.registerAlias aliasName target = .ok after) (name : String) :
    after.canonicalName? name =
      if name = aliasName then table.canonicalName? target else table.canonicalName? name := by
  obtain ⟨canonical, resolved, unregistered, rfl⟩ := consistent.registerAlias_accepted accepted
  rw [resolved]
  split
  · next used =>
      -- The alias stood for this entry before.
      split
      · next same => rw [same, canonicalName?_of_unregistered unregistered, used]
      · rfl
  · have free : (table.forgetAlias aliasName).entries.get? aliasName = none := by
      rw [consistent.get?_entries_forgetAlias, unregistered, Option.map_none]
    rw [canonicalName?_attach free]
    split
    · rfl
    · next different => exact consistent.canonicalName?_forgetAlias_of_ne different

theorem canonicalName?_delete_alias (consistent : table.Consistent) {aliasName : String}
    (used : table.isAlias aliasName = true) (name : String) :
    (table.delete aliasName).2.canonicalName? name =
      if name = aliasName then none else table.canonicalName? name := by
  obtain ⟨target, used⟩ := Option.isSome_iff_exists.mp used
  rw [delete_of_alias used]
  split
  · next same =>
      subst same
      have free : (table.forgetAlias name).entries.get? name = none := by
        rw [consistent.get?_entries_forgetAlias, consistent.free used, Option.map_none]
      rw [canonicalName?_of_unregistered free, get?_aliases_forgetAlias, if_pos rfl]
  · next different => exact consistent.canonicalName?_forgetAlias_of_ne different

/-- What stands for a registered name is the name itself and what its entry lists. -/
theorem canonicalName?_eq_some_iff (consistent : table.Consistent) {canonical : String}
    {entry : Entry α} (held : table.entries.get? canonical = some entry) (name : String) :
    table.canonicalName? name = some canonical ↔ name = canonical ∨ name ∈ entry.aliases := by
  cases registered : table.entries.get? name with
  | some other =>
      have itself : table.canonicalName? name = some name :=
        canonicalName?_of_registered (by simp [Dict.contains, registered])
      have absent : name ∉ entry.aliases :=
        consistent.not_mem_of_unused held (consistent.unused_of_registered registered)
      simp [itself, absent]
  | none =>
      have different : name ≠ canonical := by
        rintro rfl
        simp [held] at registered
      rw [canonicalName?_of_unregistered registered, consistent.target_iff_mem held]
      simp [different]

theorem canonicalName?_delete_registered (consistent : table.Consistent) {canonical : String}
    (registered : table.entries.contains canonical = true) (name : String) :
    (table.delete canonical).2.canonicalName? name =
      if table.canonicalName? name = some canonical then none
      else table.canonicalName? name := by
  obtain ⟨entry, held⟩ := Option.isSome_iff_exists.mp registered
  obtain ⟨entries, aliases⟩ := consistent.delete_of_registered held
  have unlisted := consistent.get?_foldl_erase_aliases held name
  by_cases same : name = canonical
  · subst same
    have gone : (table.delete name).2.entries.get? name = none := by
      rw [entries, Dict.get?_erase_self]
    rw [if_pos (canonicalName?_of_registered registered), canonicalName?_of_unregistered gone,
      aliases, unlisted, consistent.unused_of_registered held, ite_self]
  · have remains : (table.delete canonical).2.entries.get? name = table.entries.get? name := by
      rw [entries, Dict.get?_erase, if_neg same]
    cases kept : table.entries.get? name with
    | some other =>
        have itself : table.canonicalName? name = some name :=
          canonicalName?_of_registered (by simp [Dict.contains, kept])
        have still : (table.delete canonical).2.canonicalName? name = some name :=
          canonicalName?_of_registered (by simp [Dict.contains, remains, kept])
        simp [still, itself, same]
    | none =>
        rw [canonicalName?_of_unregistered (remains.trans kept),
          canonicalName?_of_unregistered kept, aliases, unlisted]

theorem canonicalName?_modifyValue (consistent : table.Consistent) (name : String)
    (f : α → α) (other : String) :
    (table.modifyValue name f).canonicalName? other = table.canonicalName? other := by
  obtain same | ⟨entry, registered, stores⟩ := consistent.modifyValue_stores name f
  · rw [same]
  · exact stores.canonicalName?_of_registered registered other

theorem canonicalName?_updateMetadata (consistent : table.Consistent) (name : String)
    (reg : Registration) (other : String) :
    (table.updateMetadata name reg).2.canonicalName? other = table.canonicalName? other := by
  obtain same | ⟨entry, registered, stores⟩ := consistent.updateMetadata_stores name reg
  · rw [same]
  · exact stores.canonicalName?_of_registered registered other

theorem isSome_get?_iff (consistent : table.Consistent) (name : String) :
    (table.get? name).isSome = true ↔ (table.canonicalName? name).isSome = true := by
  unfold get?
  cases resolved : table.canonicalName? name with
  | none => simp
  | some canonical =>
      obtain ⟨entry, held⟩ := consistent.registered_of_canonicalName? resolved
      simp [held]

end Consistent

/-- How each edit of a reachable table changes what `name` stands for. Registering `x`
makes it stand for itself. An accepted alias stands for what its target stood for; it is
refused exactly if the target stands for nothing or the alias is registered, and then the
table stays as it is. Deleting an alias makes that alias alone stand for nothing. Deleting
a registered name does so to all that stood for it, which is the name and its aliases.
Nothing else changes, and a name has an entry exactly if it stands for one. -/
theorem Reachable.resolution {table : SymbolTable α} (reachable : table.Reachable)
    (name : String) :
    (∀ x value reg, (table.register x value reg).canonicalName? name =
      if name = x then some x else table.canonicalName? name) ∧
    (∀ aliasName target after, table.registerAlias aliasName target = .ok after →
      after.canonicalName? name =
        if name = aliasName then table.canonicalName? target else table.canonicalName? name) ∧
    (∀ aliasName target, (∃ reason, table.registerAlias aliasName target = .error reason) ↔
      table.canonicalName? target = none ∨ table.entries.contains aliasName = true) ∧
    (∀ aliasName target reason, table.registerAlias aliasName target = .error reason →
      table.edited (.registerAlias aliasName target) = table) ∧
    (∀ aliasName, table.isAlias aliasName = true →
      (table.delete aliasName).2.canonicalName? name =
        if name = aliasName then none else table.canonicalName? name) ∧
    (∀ canonical, table.entries.contains canonical = true →
      ((table.delete canonical).2.canonicalName? name =
        if table.canonicalName? name = some canonical then none
        else table.canonicalName? name) ∧
      (table.canonicalName? name = some canonical ↔
        name = canonical ∨ name ∈ table.aliasesFor canonical)) ∧
    (∀ unknown, table.canonicalName? unknown = none → (table.delete unknown).2 = table) ∧
    (∀ x reg, (table.updateMetadata x reg).2.canonicalName? name = table.canonicalName? name) ∧
    (∀ x f, (table.modifyValue x f).canonicalName? name = table.canonicalName? name) ∧
    ((table.get? name).isSome = true ↔ (table.canonicalName? name).isSome = true) := by
  have consistent := reachable.consistent
  refine ⟨?_, ?_, table.registerAlias_refused_iff, ?_, ?_, ?_, ?_, ?_, ?_,
    consistent.isSome_get?_iff name⟩
  · intro x value reg
    exact consistent.canonicalName?_register x value reg name
  · intro aliasName target after accepted
    exact consistent.canonicalName?_registerAlias accepted name
  · intro aliasName target reason refused
    simp only [edited, refused]
  · intro aliasName used
    exact consistent.canonicalName?_delete_alias used name
  · intro canonical registered
    refine ⟨consistent.canonicalName?_delete_registered registered name, ?_⟩
    obtain ⟨entry, held⟩ := Option.isSome_iff_exists.mp registered
    have own : table.aliasesFor canonical = entry.aliases := by
      simp [aliasesFor, get?, canonicalName?_of_registered registered, held]
    rw [own]
    exact consistent.canonicalName?_eq_some_iff held name
  · intro unknown unresolved
    rw [delete_of_unresolved unresolved]
  · intro x reg
    exact consistent.canonicalName?_updateMetadata x reg name
  · intro x f
    exact consistent.canonicalName?_modifyValue x f name

theorem Reachable.resolution_deleted :
    let edits : List (Edit Nat) :=
      [.register "map" 1 {}, .register "fold" 2 {}, .registerAlias "List.map" "map",
        .registerAlias "each" "List.map", .registerAlias "reduce" "fold"]
    let table := edits.foldl edited ∅
    table.Reachable ∧ table.entries.contains "map" = true ∧
      table.canonicalName? "each" = some "map" ∧
      (table.delete "map").2.canonicalName? "each" = none ∧
      (table.delete "map").2.canonicalName? "reduce" = some "fold" := by
  intro edits table
  have reachable : table.Reachable := ⟨edits, rfl⟩
  have registered : table.entries.contains "map" = true := by decide +kernel
  have each : table.canonicalName? "each" = some "map" := by decide +kernel
  have reduce : table.canonicalName? "reduce" = some "fold" := by decide +kernel
  have law (name : String) :=
    ((reachable.resolution name).2.2.2.2.2.1 "map" registered).1
  refine ⟨reachable, registered, each, ?_, ?_⟩
  · rw [law, if_pos each]
  · rw [law, reduce, if_neg (by decide)]

end SymbolTable

end ModuleTyping
