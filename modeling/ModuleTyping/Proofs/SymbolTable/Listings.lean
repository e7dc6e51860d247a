import ModuleTyping.Proofs.SymbolTable.Consistency

/-!
# What the listings list

The listings of a symbol table repeat what its entries say: a name is listed under a module
exactly if there is an entry of that name and the entry belongs to that module, and
likewise for namespaces (`Indexed`). Every edit preserves this, so it holds of every
reachable table.

Two reachable tables with the same entries therefore list the same entries everywhere,
though maybe in another order. As no two entries share a name, searching a listing by name
does not see the order (`find?_named_eq`).
-/

namespace ModuleTyping

namespace Listing

theorem under_insert (index : Listing) (key other : String) (names : List String) :
    under (index.insert key names) other = if other = key then names else index.under other := by
  unfold under
  rw [Dict.get?_insert]
  split <;> rfl

theorem under_erase (index : Listing) (key other : String) :
    under (index.erase key) other = if other = key then [] else index.under other := by
  unfold under
  rw [Dict.get?_erase]
  split <;> rfl

theorem mem_under_list (index : Listing) (place : Option String) (name other key : String) :
    other ∈ (index.list place name).under key ↔
      other ∈ index.under key ∨ (place = some key ∧ other = name) := by
  cases place with
  | none => simp [list]
  | some place =>
      simp only [list, under_insert, Option.some.injEq]
      by_cases same : key = place
      · subst same
        by_cases listed : name ∈ index.under key
        · simp only [if_pos listed, if_true, true_and]
          exact ⟨.inl, fun found => found.elim id fun same => same ▸ listed⟩
        · simp [listed]
      · simp [same, Ne.symm same]

/-- Dropping the key of an empty list reads the same as keeping it. -/
theorem under_unlist (index : Listing) (place : Option String) (name key : String) :
    (index.unlist place name).under key =
      if place = some key then (index.under key).filter (· ≠ name) else index.under key := by
  cases place with
  | none => rfl
  | some place =>
      have left : (index.unlist (some place) name).under key =
          if key = place then (index.under place).filter (· ≠ name) else index.under key := by
        simp only [unlist]
        split
        · next emptied => rw [under_erase, emptied]
        · rw [under_insert]
      rw [left]
      by_cases same : key = place
      · rw [if_pos same, if_pos (congrArg some same.symm), same]
      · rw [if_neg same, if_neg fun placed => same (Option.some.inj placed).symm]

theorem mem_under_unlist (index : Listing) (place : Option String) (name other key : String) :
    other ∈ (index.unlist place name).under key ↔
      other ∈ index.under key ∧ ¬ (place = some key ∧ other = name) := by
  rw [under_unlist]
  by_cases same : place = some key
  · simp [same]
  · simp [same]

end Listing

namespace SymbolTable

variable {α : Type} {table after : SymbolTable α}

/-- The two ways in which entries are listed. -/
inductive Axis where
  | module
  | space

/-- What an entry is listed under. -/
def Axis.key : Axis → Entry α → Option String
  | .module => Entry.moduleName
  | .space => Entry.namespaceName

/-- The listing of names along an axis. -/
def index (table : SymbolTable α) : Axis → Listing
  | .module => table.byModule
  | .space => table.byNamespace

/-- The entries that are listed under a key. -/
def listing (table : SymbolTable α) (axis : Axis) (key : String) : List (Entry α) :=
  ((table.index axis).under key).filterMap table.entries.get?

/-- A name is listed exactly where its entry says. -/
def Indexed (table : SymbolTable α) : Prop :=
  ∀ (axis : Axis) (key name : String),
    name ∈ (table.index axis).under key ↔ (table.entries.get? name).bind axis.key = some key

theorem index_unlistEntry (table : SymbolTable α) (entry : Entry α) (axis : Axis) :
    (table.unlistEntry entry).index axis =
      (table.index axis).unlist (axis.key entry) entry.name := by
  cases axis <;> rfl

theorem index_store (table : SymbolTable α) (entry : Entry α) (axis : Axis) :
    (table.store entry).index axis = (table.index axis).list (axis.key entry) entry.name := by
  cases axis <;> rfl

namespace Indexed

theorem empty : Indexed (∅ : SymbolTable α) := by
  rintro (_ | _) key name
  · exact ⟨by rintro ⟨⟩, by rintro ⟨⟩⟩
  · exact ⟨by rintro ⟨⟩, by rintro ⟨⟩⟩

/-- Changes that move no entry need no change of the listings. -/
theorem of_unmoved (indexed : table.Indexed) (index : after.index = table.index)
    (unmoved : ∀ (axis : Axis) (name : String), (after.entries.get? name).bind axis.key =
      (table.entries.get? name).bind axis.key) : after.Indexed := by
  intro axis key name
  rw [index, unmoved]
  exact indexed axis key name

theorem modify (indexed : table.Indexed) {f : Entry α → Entry α}
    (unmoved : ∀ (axis : Axis) entry, axis.key (f entry) = axis.key entry)
    (index : after.index = table.index) (target : String)
    (entries : after.entries = table.entries.modify target f) : after.Indexed := by
  refine indexed.of_unmoved index fun axis name => ?_
  rw [entries, Dict.get?_modify]
  split
  · next same =>
      rw [same]
      cases table.entries.get? target with
      | none => rfl
      | some entry => exact unmoved axis entry
  · rfl

/-- Taking an entry out of the table and out of its listings. -/
theorem remove (indexed : table.Indexed) {entry : Entry α}
    (held : table.entries.get? entry.name = some entry)
    (index : after.index = (table.unlistEntry entry).index)
    (entries : after.entries = table.entries.erase entry.name) : after.Indexed := by
  intro axis key name
  rw [index, entries, index_unlistEntry, Listing.mem_under_unlist, indexed axis, Dict.get?_erase]
  by_cases same : name = entry.name
  · simp [same, held]
  · simp [same]

/-- Storing an entry under a name that is not registered. -/
theorem store (indexed : table.Indexed) {entry : Entry α}
    (fresh : table.entries.get? entry.name = none) : (table.store entry).Indexed := by
  intro axis key name
  have entries : (table.store entry).entries = table.entries.insert entry.name entry := rfl
  rw [entries, index_store, Listing.mem_under_list, indexed axis, Dict.get?_insert]
  by_cases same : name = entry.name
  · simp [same, fresh]
  · simp [same]

/-- Replacing an entry is removing it and storing the new one. -/
theorem replace (indexed : table.Indexed) {old entry : Entry α}
    (held : table.entries.get? old.name = some old) (named : entry.name = old.name) :
    ((table.unlistEntry old).store entry).Indexed := by
  let removed : SymbolTable α :=
    { table.unlistEntry old with entries := table.entries.erase old.name }
  have indexed : removed.Indexed := indexed.remove held rfl rfl
  have fresh : removed.entries.get? entry.name = none := by
    rw [named]
    exact Dict.get?_erase_self _ _
  have same : removed.store entry = (table.unlistEntry old).store entry := by
    simp only [removed, SymbolTable.store, named, Dict.insert_erase]
    rfl
  exact same ▸ indexed.store fresh

theorem detach (indexed : table.Indexed) (aliasName target : String) :
    (table.detach aliasName target).Indexed :=
  indexed.modify (by rintro (_ | _) _ <;> rfl) (by funext axis; cases axis <;> rfl) target rfl

theorem forgetAlias (indexed : table.Indexed) (aliasName : String) :
    (table.forgetAlias aliasName).Indexed := by
  unfold SymbolTable.forgetAlias
  split
  · exact indexed.detach _ _
  · exact indexed

theorem attach (indexed : table.Indexed) (aliasName target : String) :
    (table.attach aliasName target).Indexed := by
  refine indexed.modify ?_ (by funext axis; cases axis <;> rfl) target rfl
  intro axis entry
  unfold Entry.addAlias
  split
  · rfl
  · cases axis <;> rfl

theorem register (indexed : table.Indexed) (consistent : table.Consistent) (name : String)
    (value : α) (reg : Registration) : (table.register name value reg).Indexed := by
  have indexed := indexed.forgetAlias name
  unfold SymbolTable.register
  dsimp only
  split
  · next old held =>
      have named : old.name = name := (consistent.forgetAlias name).named held
      exact indexed.replace (named ▸ held) rfl
  · next fresh => exact indexed.store fresh

theorem registerAlias (indexed : table.Indexed) (consistent : table.Consistent)
    {aliasName target : String} (accepted : table.registerAlias aliasName target = .ok after) :
    after.Indexed := by
  obtain ⟨canonical, -, -, rfl⟩ := consistent.registerAlias_accepted accepted
  split
  · exact indexed
  · exact (indexed.forgetAlias aliasName).attach aliasName canonical

theorem modifyValue (indexed : table.Indexed) (name : String) (f : α → α) :
    (table.modifyValue name f).Indexed := by
  unfold SymbolTable.modifyValue
  split
  · exact indexed
  · exact indexed.modify (by rintro (_ | _) _ <;> rfl) (by funext axis; cases axis <;> rfl) _ rfl

theorem updateMetadata (indexed : table.Indexed) (consistent : table.Consistent) (name : String)
    (reg : Registration) : (table.updateMetadata name reg).2.Indexed := by
  unfold SymbolTable.updateMetadata
  split
  · next entry found =>
      obtain ⟨canonical, -, held⟩ := Option.bind_eq_some_iff.mp found
      have named : entry.name = canonical := consistent.named held
      exact indexed.replace (named ▸ held) rfl
  · exact indexed

theorem delete (indexed : table.Indexed) (consistent : table.Consistent) (name : String) :
    (table.delete name).2.Indexed := by
  unfold SymbolTable.delete
  split
  · exact indexed.detach _ _
  · split
    · next entry held =>
        obtain rfl := consistent.named held
        exact indexed.remove held (by funext axis; cases axis <;> rfl) rfl
    · exact indexed

/-- Every edit keeps the listings in step with the entries. -/
theorem edited (indexed : table.Indexed) (consistent : table.Consistent) (edit : Edit α) :
    (table.edited edit).Indexed := by
  cases edit with
  | register name value reg => exact indexed.register consistent name value reg
  | registerAlias aliasName target =>
      simp only [SymbolTable.edited]
      split
      · next accepted => exact indexed.registerAlias consistent accepted
      · exact indexed
  | modifyValue name f => exact indexed.modifyValue name f
  | updateMetadata name reg => exact indexed.updateMetadata consistent name reg
  | delete name => exact indexed.delete consistent name
  | clear => exact .empty

theorem foldl_edited (indexed : table.Indexed) (consistent : table.Consistent)
    (edits : List (Edit α)) : (edits.foldl SymbolTable.edited table).Indexed := by
  induction edits generalizing table with
  | nil => exact indexed
  | cons edit edits ih => exact ih (indexed.edited consistent edit) (consistent.edited edit)

end Indexed

theorem Reachable.indexed (reachable : table.Reachable) : table.Indexed := by
  obtain ⟨edits, rfl⟩ := reachable
  exact Indexed.empty.foldl_edited .empty edits

/-! ### Searching a listing -/

/-- The entries listed under a key are those that say so. -/
theorem Reachable.mem_listing (reachable : table.Reachable) {axis : Axis} {key : String}
    {entry : Entry α} : entry ∈ table.listing axis key ↔
      table.entries.get? entry.name = some entry ∧ axis.key entry = some key := by
  unfold listing
  rw [List.mem_filterMap]
  constructor
  · rintro ⟨name, listed, held⟩
    rw [reachable.indexed, held] at listed
    rw [reachable.consistent.named held]
    exact ⟨held, listed⟩
  · rintro ⟨held, placed⟩
    refine ⟨entry.name, ?_, held⟩
    rw [reachable.indexed, held]
    exact placed

/-- Two lists of the same entries, whose names tell them apart, give the same answer to a
search by name. -/
theorem find?_named_eq {l l' : List (Entry α)} (same : ∀ entry, entry ∈ l ↔ entry ∈ l')
    (apart : ∀ entry ∈ l, ∀ other ∈ l, entry.name = other.name → entry = other) (name : String) :
    l.find? (·.name == name) = l'.find? (·.name == name) := by
  cases found : l.find? (·.name == name) with
  | none =>
      rw [List.find?_eq_none] at found
      refine (List.find?_eq_none.mpr fun entry listed => ?_).symm
      exact found entry ((same entry).mpr listed)
  | some entry =>
      have listed := List.mem_of_find?_eq_some found
      have named : entry.name = name := by simpa using List.find?_some found
      obtain ⟨other, found'⟩ : ∃ other, l'.find? (·.name == name) = some other := by
        rw [← Option.isSome_iff_exists, List.find?_isSome]
        exact ⟨entry, (same entry).mp listed, by simpa using named⟩
      have listed' := (same other).mpr (List.mem_of_find?_eq_some found')
      have named' : other.name = name := by simpa using List.find?_some found'
      rw [found', apart entry listed other listed' (named.trans named'.symm)]

end SymbolTable

end ModuleTyping
