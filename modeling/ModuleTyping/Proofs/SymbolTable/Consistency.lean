import ModuleTyping.SymbolTable.Basic

/-!
# Consistency of names and aliases

A symbol table says twice which aliases an entry has: the alias dictionary sends each
alias to a registered name, and each entry lists its own aliases. `Consistent` states
that the two agree, that every entry stands under its own name and that no alias is a
registered name. Every edit preserves it, so it holds of every reachable table.

In a consistent table, forgetting an alias takes it off every entry's list
(`Consistent.get?_entries_forgetAlias`), whichever entry it stood for. The edits are
described by four changes of the two dictionaries: forgetting an alias, storing an
entry, attaching a free alias and removing an entry with its aliases.
-/

namespace ModuleTyping

namespace Dict

variable {α : Type}

theorem get?_modify (d : Dict α) (key other : String) (f : α → α) :
    (d.modify key f).get? other = if other = key then (d.get? key).map f else d.get? other := by
  unfold modify
  cases held : d.get? key with
  | some value => simp [get?_insert]
  | none =>
      by_cases same : other = key
      · simp [same, held]
      · simp [same]

theorem get?_foldl_erase (names : List String) (d : Dict α) (key : String) :
    (names.foldl erase d).get? key = if key ∈ names then none else d.get? key := by
  induction names generalizing d with
  | nil => simp
  | cons name names ih =>
      rw [List.foldl_cons, ih, get?_erase]
      by_cases same : key = name
      · simp [same]
      · simp [same]

theorem insert_of_get? {d : Dict α} {key : String} {value : α} (held : d.get? key = some value) :
    d.insert key value = d := by
  refine ext_get? fun other => ?_
  rw [get?_insert]
  split
  · next same => rw [same, held]
  · rfl

theorem insert_erase (d : Dict α) (key : String) (value : α) :
    (d.erase key).insert key value = d.insert key value := by
  refine ext_get? fun other => ?_
  rw [get?_insert, get?_insert, get?_erase]
  split <;> rfl

theorem modify_of_get? {d : Dict α} {key : String} {value : α} (held : d.get? key = some value)
    (f : α → α) : d.modify key f = d.insert key (f value) := by
  rw [modify, held]

end Dict

namespace Entry

variable {α : Type}

@[simp] theorem name_dropAlias (entry : Entry α) (aliasName : String) :
    (entry.dropAlias aliasName).name = entry.name := rfl

@[simp] theorem mem_aliases_dropAlias {entry : Entry α} {aliasName other : String} :
    other ∈ (entry.dropAlias aliasName).aliases ↔ other ∈ entry.aliases ∧ other ≠ aliasName := by
  simp [dropAlias]

theorem dropAlias_of_not_mem {entry : Entry α} {aliasName : String}
    (absent : aliasName ∉ entry.aliases) : entry.dropAlias aliasName = entry := by
  have kept : entry.aliases.filter (· ≠ aliasName) = entry.aliases := by
    rw [List.filter_eq_self]
    intro other listed
    simpa using ne_of_mem_of_not_mem listed absent
  rw [dropAlias, kept]

theorem addAlias_of_mem {entry : Entry α} {aliasName : String}
    (present : aliasName ∈ entry.aliases) : entry.addAlias aliasName = entry :=
  if_pos present

theorem addAlias_of_not_mem {entry : Entry α} {aliasName : String}
    (absent : aliasName ∉ entry.aliases) :
    entry.addAlias aliasName = { entry with aliases := entry.aliases ++ [aliasName] } :=
  if_neg absent

end Entry

namespace SymbolTable

variable {α : Type}

/-- A change that a caller may ask of a table. -/
inductive Edit (α : Type) where
  | register (name : String) (value : α) (reg : Registration)
  | registerAlias (aliasName target : String)
  | modifyValue (name : String) (f : α → α)
  | updateMetadata (name : String) (reg : Registration)
  | delete (name : String)
  | clear

/-- The table after an edit. An alias that is refused leaves the table as it was. -/
def edited (table : SymbolTable α) : Edit α → SymbolTable α
  | .register name value reg => table.register name value reg
  | .registerAlias aliasName target =>
    match table.registerAlias aliasName target with
    | .ok after => after
    | .error _ => table
  | .modifyValue name f => table.modifyValue name f
  | .updateMetadata name reg => (table.updateMetadata name reg).2
  | .delete name => (table.delete name).2
  | .clear => ∅

/-- Some sequence of edits builds the table from the empty one. -/
def Reachable (table : SymbolTable α) : Prop :=
  ∃ edits : List (Edit α), edits.foldl edited ∅ = table

/-- The entries and the alias dictionary tell the same story. -/
structure Consistent (table : SymbolTable α) : Prop where
  /-- Every entry is stored under its own name. -/
  named : ∀ {key entry}, table.entries.get? key = some entry → entry.name = key
  /-- No alias is a registered name. -/
  free : ∀ {aliasName target}, table.aliases.get? aliasName = some target →
    table.entries.get? aliasName = none
  /-- An alias stands for an entry exactly if the entry lists it. -/
  listed : ∀ {aliasName target}, table.aliases.get? aliasName = some target ↔
    ∃ entry, table.entries.get? target = some entry ∧ aliasName ∈ entry.aliases
  /-- No entry lists an alias twice. -/
  distinct : ∀ {key entry}, table.entries.get? key = some entry → entry.aliases.Nodup

/-- Storing `entry` turns `table` into `after`, up to the listings. The entry's name is no
alias, and it has the aliases of the entry it replaces: none, where it replaces none. -/
structure Stores (table : SymbolTable α) (entry : Entry α) (after : SymbolTable α) : Prop where
  entries : after.entries = table.entries.insert entry.name entry
  aliases : after.aliases = table.aliases
  unused : table.aliases.get? entry.name = none
  kept : entry.aliases = ((table.entries.get? entry.name).map Entry.aliases).getD []

/-- Makes a free name stand for `target` and lists it there. -/
def attach (table : SymbolTable α) (aliasName target : String) : SymbolTable α :=
  { table with
    entries := table.entries.modify target (·.addAlias aliasName)
    aliases := table.aliases.insert aliasName target }

theorem get?_entries_attach (table : SymbolTable α) (aliasName target key : String) :
    (table.attach aliasName target).entries.get? key =
      if key = target then (table.entries.get? target).map (·.addAlias aliasName)
      else table.entries.get? key :=
  Dict.get?_modify table.entries target key _

theorem get?_aliases_attach (table : SymbolTable α) (aliasName target other : String) :
    (table.attach aliasName target).aliases.get? other =
      if other = aliasName then some target else table.aliases.get? other :=
  Dict.get?_insert table.aliases aliasName other target

theorem get?_aliases_forgetAlias (table : SymbolTable α) (aliasName other : String) :
    (table.forgetAlias aliasName).aliases.get? other =
      if other = aliasName then none else table.aliases.get? other := by
  unfold forgetAlias
  cases used : table.aliases.get? aliasName with
  | some target => exact Dict.get?_erase table.aliases aliasName other
  | none =>
      by_cases same : other = aliasName
      · simp [same, used]
      · simp [same]

theorem delete_of_alias {table : SymbolTable α} {aliasName target : String}
    (used : table.aliases.get? aliasName = some target) :
    table.delete aliasName = (true, table.forgetAlias aliasName) := by
  simp only [delete, forgetAlias, used]

/-- An alias is refused exactly if its target stands for nothing or it is registered. -/
theorem registerAlias_refused_iff (table : SymbolTable α) (aliasName target : String) :
    (∃ reason, table.registerAlias aliasName target = .error reason) ↔
      table.canonicalName? target = none ∨ table.entries.contains aliasName = true := by
  unfold registerAlias
  cases table.canonicalName? target with
  | none => simp
  | some canonical =>
      by_cases registered : table.entries.contains aliasName = true
      · simp [registered]
      · simp [registered]

namespace Consistent

variable {table : SymbolTable α}

theorem empty : Consistent (∅ : SymbolTable α) where
  named := by rintro _ _ ⟨⟩
  free := by rintro _ _ ⟨⟩
  listed := ⟨by rintro ⟨⟩, by rintro ⟨_, ⟨⟩, _⟩⟩
  distinct := by rintro _ _ ⟨⟩

theorem target_iff_mem (consistent : table.Consistent) {key aliasName : String}
    {entry : Entry α} (held : table.entries.get? key = some entry) :
    table.aliases.get? aliasName = some key ↔ aliasName ∈ entry.aliases := by
  rw [consistent.listed, held]
  simp

theorem not_mem_of_unused (consistent : table.Consistent) {key aliasName : String}
    {entry : Entry α} (held : table.entries.get? key = some entry)
    (unused : table.aliases.get? aliasName = none) : aliasName ∉ entry.aliases := by
  intro present
  rw [(consistent.target_iff_mem held).mpr present] at unused
  cases unused

/-! ### Forgetting an alias -/

/-- The alias is taken off every list, since only one list has it. -/
theorem get?_entries_forgetAlias (consistent : table.Consistent) (aliasName key : String) :
    (table.forgetAlias aliasName).entries.get? key =
      (table.entries.get? key).map (·.dropAlias aliasName) := by
  -- An entry that does not list the alias is not changed by dropping it.
  have untouched (unlisted : table.aliases.get? aliasName ≠ some key) :
      (table.entries.get? key).map (·.dropAlias aliasName) = table.entries.get? key := by
    cases held : table.entries.get? key with
    | none => rfl
    | some entry =>
        have absent : aliasName ∉ entry.aliases := fun present =>
          unlisted ((consistent.target_iff_mem held).mpr present)
        simp [Entry.dropAlias_of_not_mem absent]
  unfold forgetAlias
  cases used : table.aliases.get? aliasName with
  | none => exact (untouched (by simp [used])).symm
  | some target =>
      show (table.entries.modify target _).get? key = _
      rw [Dict.get?_modify]
      by_cases same : key = target
      · rw [if_pos same, same]
      · rw [if_neg same, untouched (by simpa [used] using Ne.symm same)]

theorem forgetAlias (consistent : table.Consistent) (aliasName : String) :
    (table.forgetAlias aliasName).Consistent := by
  have entries := consistent.get?_entries_forgetAlias aliasName
  have aliases := get?_aliases_forgetAlias table aliasName
  refine ⟨?_, ?_, ?_, ?_⟩
  · intro key entry held
    rw [entries, Option.map_eq_some_iff] at held
    obtain ⟨old, held, rfl⟩ := held
    rw [Entry.name_dropAlias]
    exact consistent.named held
  · intro other target used
    rw [aliases] at used
    obtain ⟨-, used⟩ := Option.ite_none_left_eq_some.mp used
    rw [entries, consistent.free used, Option.map_none]
  · intro other target
    rw [aliases, entries, Option.ite_none_left_eq_some, consistent.listed]
    constructor
    · rintro ⟨different, entry, held, present⟩
      refine ⟨entry.dropAlias aliasName, by rw [held, Option.map_some], ?_⟩
      exact Entry.mem_aliases_dropAlias.mpr ⟨present, different⟩
    · rintro ⟨entry, dropped, present⟩
      obtain ⟨old, held, rfl⟩ := Option.map_eq_some_iff.mp dropped
      obtain ⟨present, different⟩ := Entry.mem_aliases_dropAlias.mp present
      exact ⟨different, old, held, present⟩
  · intro key entry held
    rw [entries, Option.map_eq_some_iff] at held
    obtain ⟨old, held, rfl⟩ := held
    exact (consistent.distinct held).filter _

/-! ### Storing an entry -/

theorem of_stores (consistent : table.Consistent) {entry : Entry α} {after : SymbolTable α}
    (stores : table.Stores entry after) : after.Consistent := by
  obtain ⟨entries, aliases, unused, kept⟩ := stores
  have lookUp (key : String) :
      after.entries.get? key = if key = entry.name then some entry else table.entries.get? key := by
    rw [entries, Dict.get?_insert]
  refine ⟨?_, ?_, ?_, ?_⟩
  · intro key found held
    rw [lookUp] at held
    split at held
    · obtain rfl := Option.some.inj held
      exact Eq.symm ‹_›
    · exact consistent.named held
  · intro aliasName target used
    rw [aliases] at used
    have different : aliasName ≠ entry.name := by
      rintro rfl
      simp [unused] at used
    rw [lookUp, if_neg different]
    exact consistent.free used
  · intro aliasName target
    rw [aliases, consistent.listed, lookUp]
    split
    · next same =>
        subst same
        simp only [Option.some.injEq, exists_eq_left', kept]
        cases table.entries.get? entry.name <;> simp
    · rfl
  · intro key found held
    rw [lookUp] at held
    split at held
    · obtain rfl := Option.some.inj held
      rw [kept]
      cases old : table.entries.get? entry.name with
      | none => exact List.nodup_nil
      | some replaced => exact consistent.distinct old
    · exact consistent.distinct held

/-! ### Attaching an alias -/

theorem get?_entries_attach_unused (consistent : table.Consistent) {aliasName target : String}
    {entry : Entry α} (held : table.entries.get? target = some entry)
    (unused : table.aliases.get? aliasName = none) (key : String) :
    (table.attach aliasName target).entries.get? key =
      if key = target then some { entry with aliases := entry.aliases ++ [aliasName] }
      else table.entries.get? key := by
  have absent := consistent.not_mem_of_unused held unused
  rw [get?_entries_attach, held, Option.map_some, Entry.addAlias_of_not_mem absent]

/-- The new alias stands for the target and is on the target's list only; the others stand
where they stood. -/
theorem attach_listed (consistent : table.Consistent) {aliasName target : String}
    {entry : Entry α} (held : table.entries.get? target = some entry)
    (unused : table.aliases.get? aliasName = none) (other found : String) :
    (table.attach aliasName target).aliases.get? other = some found ↔
      ∃ listing, (table.attach aliasName target).entries.get? found = some listing ∧
        other ∈ listing.aliases := by
  rw [get?_aliases_attach, consistent.get?_entries_attach_unused held unused]
  by_cases new : other = aliasName
  · subst new
    rw [if_pos rfl]
    constructor
    · intro same
      obtain rfl := Option.some.inj same
      exact ⟨_, if_pos rfl, by simp⟩
    · rintro ⟨listing, stored, present⟩
      split at stored
      · next same => rw [same]
      · exact absurd present (consistent.not_mem_of_unused stored unused)
  · rw [if_neg new, consistent.listed]
    split
    · next same => simp [same, held, new]
    · rfl

theorem attach (consistent : table.Consistent) {aliasName target : String} {entry : Entry α}
    (held : table.entries.get? target = some entry)
    (unregistered : table.entries.get? aliasName = none)
    (unused : table.aliases.get? aliasName = none) :
    (table.attach aliasName target).Consistent := by
  have entries := consistent.get?_entries_attach_unused held unused
  refine ⟨?_, ?_, consistent.attach_listed held unused _ _, ?_⟩
  · intro key found stored
    rw [entries] at stored
    split at stored
    · next same =>
        obtain rfl := Option.some.inj stored
        show entry.name = key
        rw [same]
        exact consistent.named held
    · exact consistent.named stored
  · intro other found used
    rw [get?_aliases_attach] at used
    have free : table.entries.get? other = none := by
      split at used
      · next same => exact same ▸ unregistered
      · exact consistent.free used
    have different : other ≠ target := by
      rintro rfl
      simp [held] at free
    rw [entries, if_neg different]
    exact free
  · intro key found stored
    rw [entries] at stored
    split at stored
    · obtain rfl := Option.some.inj stored
      refine List.nodup_append.mpr ⟨consistent.distinct held, by simp, ?_⟩
      intro old listed other new same
      obtain rfl := List.mem_singleton.mp new
      exact consistent.not_mem_of_unused held unused (same ▸ listed)
    · exact consistent.distinct stored

/-! ### Removing an entry -/

/-- Erasing what an entry lists erases exactly the aliases that stand for it. -/
theorem get?_foldl_erase_aliases (consistent : table.Consistent) {name : String}
    {entry : Entry α} (held : table.entries.get? name = some entry) (other : String) :
    (entry.aliases.foldl Dict.erase table.aliases).get? other =
      if table.aliases.get? other = some name then none else table.aliases.get? other := by
  rw [Dict.get?_foldl_erase]
  simp only [consistent.target_iff_mem held]

theorem unused_of_registered (consistent : table.Consistent) {name : String}
    {entry : Entry α} (held : table.entries.get? name = some entry) :
    table.aliases.get? name = none := by
  cases used : table.aliases.get? name with
  | none => rfl
  | some target =>
      have free := consistent.free used
      rw [held] at free
      cases free

theorem delete_of_registered (consistent : table.Consistent) {name : String}
    {entry : Entry α} (held : table.entries.get? name = some entry) :
    (table.delete name).2.entries = table.entries.erase name ∧
      (table.delete name).2.aliases = entry.aliases.foldl Dict.erase table.aliases := by
  unfold delete
  rw [consistent.unused_of_registered held, held]
  exact ⟨rfl, rfl⟩

theorem delete_registered (consistent : table.Consistent) {name : String}
    {entry : Entry α} (held : table.entries.get? name = some entry) :
    (table.delete name).2.Consistent := by
  obtain ⟨entries, aliases⟩ := consistent.delete_of_registered held
  have lookUp (key : String) : (table.delete name).2.entries.get? key =
      if key = name then none else table.entries.get? key := by
    rw [entries, Dict.get?_erase]
  have resolve (other : String) := aliases ▸ consistent.get?_foldl_erase_aliases held other
  refine ⟨?_, ?_, ?_, ?_⟩
  · intro key found stored
    rw [lookUp] at stored
    exact consistent.named (Option.ite_none_left_eq_some.mp stored).2
  · intro other target used
    rw [resolve] at used
    rw [lookUp, consistent.free (Option.ite_none_left_eq_some.mp used).2, ite_self]
  · intro other target
    rw [resolve, lookUp, Option.ite_none_left_eq_some]
    by_cases same : target = name
    · subst same
      simp
    · rw [if_neg same, ← consistent.listed]
      constructor
      · exact And.right
      · intro used
        exact ⟨by simpa [used] using same, used⟩
  · intro key found stored
    rw [lookUp] at stored
    exact consistent.distinct (Option.ite_none_left_eq_some.mp stored).2

/-! ### Edits -/

/-- A registered name is no alias any more, and its entry keeps the aliases it had. -/
theorem register_stores (consistent : table.Consistent) (name : String) (value : α)
    (reg : Registration) : ∃ entry, entry.name = name ∧
      (table.forgetAlias name).Stores entry (table.register name value reg) := by
  have unused : (table.forgetAlias name).aliases.get? name = none := by
    rw [get?_aliases_forgetAlias, if_pos rfl]
  cases held : (table.forgetAlias name).entries.get? name with
  | none =>
      refine ⟨Entry.make name value reg, rfl, ?_, ?_, unused, ?_⟩
      · simp only [SymbolTable.register, held, store]
      · simp only [SymbolTable.register, held, store]
      · simp [Entry.make, held]
  | some old =>
      have named : old.name = name := (consistent.forgetAlias name).named held
      refine ⟨{ old.relocate reg with value := value }, named, ?_, ?_, ?_, ?_⟩
      · simp only [SymbolTable.register, held, store, unlistEntry]
      · simp only [SymbolTable.register, held, store, unlistEntry]
      · exact named ▸ unused
      · simp [Entry.relocate, named, held]

/-- Resolution never dangles: what a name stands for is registered. -/
theorem registered_of_canonicalName? (consistent : table.Consistent) {name canonical : String}
    (resolved : table.canonicalName? name = some canonical) :
    ∃ entry, table.entries.get? canonical = some entry := by
  unfold canonicalName? at resolved
  split at resolved
  · next registered =>
      obtain rfl := Option.some.inj resolved
      exact Option.isSome_iff_exists.mp registered
  · obtain ⟨entry, held, -⟩ := consistent.listed.mp resolved
    exact ⟨entry, held⟩

/-- An entry that keeps its name and its aliases may replace itself. -/
theorem stores_of_registered (consistent : table.Consistent) {key : String}
    {old entry : Entry α} {after : SymbolTable α} (held : table.entries.get? key = some old)
    (name : entry.name = old.name) (kept : entry.aliases = old.aliases)
    (entries : after.entries = table.entries.insert key entry)
    (aliases : after.aliases = table.aliases) : table.Stores entry after := by
  have named : entry.name = key := name.trans (consistent.named held)
  refine ⟨named ▸ entries, aliases, ?_, ?_⟩
  · rw [named]
    exact consistent.unused_of_registered held
  · rw [named, held]
    exact kept

theorem modifyValue_stores (consistent : table.Consistent) (name : String) (f : α → α) :
    table.modifyValue name f = table ∨ ∃ entry, table.entries.contains entry.name = true ∧
      table.Stores entry (table.modifyValue name f) := by
  unfold SymbolTable.modifyValue
  cases resolved : table.canonicalName? name with
  | none => exact .inl rfl
  | some canonical =>
      obtain ⟨entry, held⟩ := consistent.registered_of_canonicalName? resolved
      refine .inr ⟨{ entry with value := f entry.value }, ?_, ?_⟩
      · simp [Dict.contains, consistent.named held, held]
      · exact consistent.stores_of_registered held rfl rfl (Dict.modify_of_get? held _) rfl

theorem updateMetadata_stores (consistent : table.Consistent) (name : String)
    (reg : Registration) : (table.updateMetadata name reg).2 = table ∨
      ∃ entry, table.entries.contains entry.name = true ∧
        table.Stores entry (table.updateMetadata name reg).2 := by
  unfold SymbolTable.updateMetadata
  cases found : table.get? name with
  | none => exact .inl rfl
  | some entry =>
      obtain ⟨canonical, -, held⟩ := Option.bind_eq_some_iff.mp found
      obtain rfl := consistent.named held
      refine .inr ⟨entry.relocate reg, ?_, ?_⟩
      · simp [Dict.contains, Entry.relocate, held]
      · exact consistent.stores_of_registered held rfl rfl rfl rfl

/-- An accepted alias that stood for the target before changes nothing; any other is
taken off the list it was on and attached to the target. -/
theorem registerAlias_eq_ok (consistent : table.Consistent) {aliasName target canonical : String}
    (resolved : table.canonicalName? target = some canonical)
    (unregistered : table.entries.get? aliasName = none) :
    table.registerAlias aliasName target =
      .ok (if table.aliases.get? aliasName = some canonical then table
        else (table.forgetAlias aliasName).attach aliasName canonical) := by
  have absent : table.entries.contains aliasName = false := by
    simp [Dict.contains, unregistered]
  simp only [SymbolTable.registerAlias, resolved, absent, Bool.false_eq_true, if_false,
    Except.ok.injEq]
  cases used : table.aliases.get? aliasName with
  | none => simp [SymbolTable.forgetAlias, used, SymbolTable.attach]
  | some previous =>
      by_cases same : previous = canonical
      · subst same
        obtain ⟨entry, held, present⟩ := consistent.listed.mp used
        simp [Dict.modify_of_get? held, Entry.addAlias_of_mem present,
          Dict.insert_of_get? held, Dict.insert_of_get? used]
      · simp [same, SymbolTable.forgetAlias, used, detach, SymbolTable.attach, Dict.insert_erase]

theorem registerAlias_accepted (consistent : table.Consistent) {aliasName target : String}
    {after : SymbolTable α} (accepted : table.registerAlias aliasName target = .ok after) :
    ∃ canonical, table.canonicalName? target = some canonical ∧
      table.entries.get? aliasName = none ∧
      after = if table.aliases.get? aliasName = some canonical then table
        else (table.forgetAlias aliasName).attach aliasName canonical := by
  have allowed : ¬ (table.canonicalName? target = none ∨
      table.entries.contains aliasName = true) := by
    rw [← registerAlias_refused_iff, accepted]
    simp
  obtain ⟨resolves, unregistered⟩ := not_or.mp allowed
  obtain ⟨canonical, resolved⟩ := Option.ne_none_iff_exists'.mp resolves
  have free : table.entries.get? aliasName = none := by
    simpa [Dict.contains] using unregistered
  rw [consistent.registerAlias_eq_ok resolved free] at accepted
  exact ⟨canonical, resolved, free, (Except.ok.inj accepted).symm⟩

theorem registerAlias (consistent : table.Consistent) {aliasName target : String}
    {after : SymbolTable α} (accepted : table.registerAlias aliasName target = .ok after) :
    after.Consistent := by
  obtain ⟨canonical, resolved, unregistered, rfl⟩ := consistent.registerAlias_accepted accepted
  split
  · exact consistent
  · obtain ⟨entry, held⟩ := consistent.registered_of_canonicalName? resolved
    have entries := consistent.get?_entries_forgetAlias aliasName
    have kept : (table.forgetAlias aliasName).entries.get? canonical =
        some (entry.dropAlias aliasName) := by
      rw [entries, held, Option.map_some]
    refine (consistent.forgetAlias aliasName).attach kept ?_ ?_
    · rw [entries, unregistered, Option.map_none]
    · rw [get?_aliases_forgetAlias, if_pos rfl]

theorem delete (consistent : table.Consistent) (name : String) :
    (table.delete name).2.Consistent := by
  cases used : table.aliases.get? name with
  | some target =>
      rw [delete_of_alias used]
      exact consistent.forgetAlias name
  | none =>
      cases held : table.entries.get? name with
      | some entry => exact consistent.delete_registered held
      | none =>
          simp only [SymbolTable.delete, used, held]
          exact consistent

/-- Every edit keeps the table consistent. -/
theorem edited (consistent : table.Consistent) (edit : Edit α) :
    (table.edited edit).Consistent := by
  cases edit with
  | register name value reg =>
      obtain ⟨entry, -, stores⟩ := consistent.register_stores name value reg
      exact (consistent.forgetAlias name).of_stores stores
  | registerAlias aliasName target =>
      simp only [SymbolTable.edited]
      split
      · next accepted => exact consistent.registerAlias accepted
      · exact consistent
  | modifyValue name f =>
      show (table.modifyValue name f).Consistent
      obtain same | ⟨entry, -, stores⟩ := consistent.modifyValue_stores name f
      · rw [same]
        exact consistent
      · exact consistent.of_stores stores
  | updateMetadata name reg =>
      show (table.updateMetadata name reg).2.Consistent
      obtain same | ⟨entry, -, stores⟩ := consistent.updateMetadata_stores name reg
      · rw [same]
        exact consistent
      · exact consistent.of_stores stores
  | delete name => exact consistent.delete name
  | clear => exact .empty

theorem foldl_edited (consistent : table.Consistent) (edits : List (Edit α)) :
    (edits.foldl SymbolTable.edited table).Consistent := by
  induction edits generalizing table with
  | nil => exact consistent
  | cons edit edits ih => exact ih (consistent.edited edit)

end Consistent

theorem Reachable.after_edit {table : SymbolTable α} (reachable : table.Reachable)
    (edit : Edit α) : (table.edited edit).Reachable := by
  obtain ⟨edits, rfl⟩ := reachable
  exact ⟨edits ++ [edit], List.foldl_append⟩

theorem Reachable.after_register {table : SymbolTable α} (reachable : table.Reachable)
    (name : String) (value : α) (reg : Registration) :
    (table.register name value reg).Reachable :=
  reachable.after_edit (.register name value reg)

theorem Reachable.after_registerAlias {table after : SymbolTable α} (reachable : table.Reachable)
    {aliasName target : String} (accepted : table.registerAlias aliasName target = .ok after) :
    after.Reachable := by
  have edited := reachable.after_edit (.registerAlias aliasName target)
  rwa [SymbolTable.edited, accepted] at edited

theorem Reachable.consistent {table : SymbolTable α} (reachable : table.Reachable) :
    table.Consistent := by
  obtain ⟨edits, rfl⟩ := reachable
  exact Consistent.empty.foldl_edited edits

/-- In every reachable table the entries and the aliases agree: each entry stands under its
own name, no alias is a registered name, an alias leads in one step to an existing entry,
it stands for an entry exactly if the entry lists it, and no list has it twice. -/
theorem Reachable.aliases_agree {table : SymbolTable α} (reachable : table.Reachable) :
    (∀ key entry, table.entries.get? key = some entry → entry.name = key) ∧
    (∀ aliasName, table.isAlias aliasName = true → table.entries.contains aliasName = false) ∧
    (∀ aliasName target, table.aliases.get? aliasName = some target →
      ∃ entry, table.entries.get? target = some entry ∧ entry.name = target ∧
        table.get? aliasName = some entry) ∧
    (∀ aliasName target, table.aliases.get? aliasName = some target ↔
      ∃ entry, table.entries.get? target = some entry ∧ aliasName ∈ entry.aliases) ∧
    (∀ key entry, table.entries.get? key = some entry → entry.aliases.Nodup) := by
  have consistent := reachable.consistent
  refine ⟨fun _ _ => consistent.named, ?_, ?_, fun _ _ => consistent.listed,
    fun _ _ => consistent.distinct⟩
  · intro aliasName used
    obtain ⟨target, used⟩ := Option.isSome_iff_exists.mp used
    simp [Dict.contains, consistent.free used]
  · intro aliasName target used
    obtain ⟨entry, held, -⟩ := consistent.listed.mp used
    refine ⟨entry, held, consistent.named held, ?_⟩
    simp [get?, canonicalName?, Dict.contains, consistent.free used, used, held]

theorem Reachable.aliases_agree_moved :
    let edits : List (Edit Nat) :=
      [.register "map" 1 {}, .register "fold" 2 {}, .registerAlias "List.map" "map",
        .registerAlias "each" "List.map", .registerAlias "each" "fold",
        .registerAlias "fold" "map", .register "List.map" 3 {}, .delete "map"]
    let table := edits.foldl edited ∅
    table.Reachable ∧ table.aliases.get? "each" = some "fold" ∧
      ∃ entry, table.entries.get? "fold" = some entry ∧ "each" ∈ entry.aliases := by
  intro edits table
  have reachable : table.Reachable := ⟨edits, rfl⟩
  have used : table.aliases.get? "each" = some "fold" := by decide +kernel
  exact ⟨reachable, used, (reachable.aliases_agree.2.2.2.1 "each" "fold").mp used⟩

end SymbolTable

end ModuleTyping
