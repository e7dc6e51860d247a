import Mathlib.Data.List.Induction
import Mathlib.Data.List.Perm.Lattice
import ModuleTyping.Proofs.Dict
import ModuleTyping.Proofs.SymbolTable.Listings

/-!
# The order of listings

A table lists the entries of each module and of each namespace, the one registered or
updated last at the end. The time of an edit is its number in the sequence of edits, and an
edit places the entry it registers or whose metadata it replaces (`placed?`), also where it
names the entry by an alias. A listing then holds exactly the entries that belong to it,
each once, and the times at which they were last placed ascend (`Chronicles`).

The proof follows the lists of names through the edits: an edit takes the name it places
out of every list and puts it last where it belongs (`InOrder.store`), and any other edit
only takes names out.
-/

namespace ModuleTyping

namespace SymbolTable

variable {α : Type} {table : SymbolTable α}

theorem Consistent.mem_toList_iff (consistent : table.Consistent) {entry : Entry α} :
    entry ∈ table.toList ↔ table.entries.get? entry.name = some entry := by
  rw [← Dict.mem_entries_iff]
  constructor
  · intro listed
    obtain ⟨⟨key, entry⟩, held, rfl⟩ := List.mem_map.mp listed
    rwa [consistent.named (Dict.mem_entries_iff.mp held)]
  · intro held
    exact List.mem_map.mpr ⟨_, held, rfl⟩

theorem Consistent.nodup_toList (consistent : table.Consistent) : table.toList.Nodup := by
  refine List.Nodup.of_map Entry.name ?_
  have keyed : table.toList.map Entry.name = table.entries.keys := by
    simp only [toList, Dict.values, Dict.keys, List.map_map]
    refine List.map_congr_left fun pair held => ?_
    exact consistent.named (Dict.mem_entries_iff.mp held)
  rw [keyed]
  exact table.entries.nodup_keys

/-- The names listed under a key are those of the entries listed there. -/
theorem map_name_listing (consistent : table.Consistent) (indexed : table.Indexed) (axis : Axis)
    (key : String) : (table.listing axis key).map Entry.name = (table.index axis).under key := by
  unfold listing
  have each : ∀ name ∈ (table.index axis).under key,
      (table.entries.get? name).map Entry.name = some name := by
    intro name listed
    obtain ⟨entry, held, -⟩ := Option.bind_eq_some_iff.mp ((indexed axis key name).mp listed)
    rw [held, Option.map_some, consistent.named held]
  generalize (table.index axis).under key = names at each
  rw [List.map_filterMap]
  induction names with
  | nil => rfl
  | cons name names ih =>
      rw [List.filterMap_cons, each name List.mem_cons_self]
      exact congrArg (name :: ·) (ih fun other member => each other (.tail name member))

/-! ### Times -/

/-- The table that a sequence of edits builds. -/
def built (edits : List (Edit α)) : SymbolTable α :=
  edits.foldl edited ∅

/-- The entry that an edit registers, or whose metadata it replaces. -/
def placed? (table : SymbolTable α) : Edit α → Option String
  | .register name _ _ => some name
  | .updateMetadata name _ => (table.get? name).map Entry.name
  | _ => none

/-- The entry that is placed at a time, which is the number of an edit in a sequence. -/
def placedAt (edits : List (Edit α)) (time : Nat) : Option String :=
  edits[time]?.bind (built (edits.take time)).placed?

/-- The last time at which the entry of a name is placed. -/
def lastPlaced (edits : List (Edit α)) (name : String) : Option Nat :=
  ((List.range edits.length).filter fun time => placedAt edits time == some name).getLast?

theorem built_concat (edits : List (Edit α)) (edit : Edit α) :
    built (edits ++ [edit]) = (built edits).edited edit := by
  simp [built]

theorem reachable_built (edits : List (Edit α)) : (built edits).Reachable :=
  ⟨edits, rfl⟩

theorem lastPlaced_concat (edits : List (Edit α)) (edit : Edit α) (name : String) :
    lastPlaced (edits ++ [edit]) name =
      if (built edits).placed? edit = some name then some edits.length
      else lastPlaced edits name := by
  have now : placedAt (edits ++ [edit]) edits.length = (built edits).placed? edit := by
    simp [placedAt]
  have earlier : (List.range edits.length).filter
        (fun time => placedAt (edits ++ [edit]) time == some name) =
      (List.range edits.length).filter fun time => placedAt edits time == some name := by
    refine List.filter_congr fun time member => ?_
    have before : time < edits.length := List.mem_range.mp member
    rw [placedAt, placedAt, List.getElem?_append_left before,
      List.take_append_of_le_length (Nat.le_of_lt before)]
  rw [lastPlaced, List.length_append, List.length_singleton, List.range_succ,
    List.filter_append, earlier, List.filter_singleton, now]
  by_cases placed : (built edits).placed? edit = some name
  · rw [placed, beq_self_eq_true, cond_true, List.getLast?_concat, if_pos rfl]
  · rw [beq_eq_false_iff_ne.mpr placed, cond_false, List.append_nil, if_neg placed, lastPlaced]

/-! ### Lists of names in the order of time -/

/-- By a clock that has reached `now`, every name has a time, and the times ascend. -/
structure Timely (clock : String → Option Nat) (now : Nat) (names : List String) : Prop where
  past : ∀ name ∈ names, ∃ time < now, clock name = some time
  ascending : names.Pairwise fun a b => ∃ i j, clock a = some i ∧ clock b = some j ∧ i < j

namespace Timely

variable {clock clock' : String → Option Nat} {now : Nat} {names names' : List String}

theorem sublist (timely : Timely clock now names) (sub : names'.Sublist names) :
    Timely clock now names' where
  past name member := timely.past name (sub.mem member)
  ascending := timely.ascending.sublist sub

/-- The clock may go on where the names' times stay. -/
theorem later (timely : Timely clock now names)
    (same : ∀ name ∈ names, clock' name = clock name) : Timely clock' (now + 1) names where
  past name member := by
    obtain ⟨time, before, at_⟩ := timely.past name member
    exact ⟨time, by omega, (same name member).trans at_⟩
  ascending := by
    refine timely.ascending.imp_of_mem fun {a b} left right ordered => ?_
    rw [same a left, same b right]
    exact ordered

/-- A name whose time is now comes last. -/
theorem concat (timely : Timely clock now names)
    (same : ∀ name ∈ names, clock' name = clock name) {name : String}
    (placed : clock' name = some now) : Timely clock' (now + 1) (names ++ [name]) where
  past other member := by
    rcases List.mem_append.mp member with member | member
    · exact (timely.later same).past other member
    · rw [List.mem_singleton.mp member]
      exact ⟨now, by omega, placed⟩
  ascending := by
    refine List.pairwise_append.mpr ⟨(timely.later same).ascending, List.pairwise_singleton _ _, ?_⟩
    intro a left b right
    obtain ⟨time, before, at_⟩ := timely.past a left
    rw [List.mem_singleton.mp right]
    exact ⟨time, now, (same a left).trans at_, placed, before⟩

/-- The times at which the names are listed ascend. -/
theorem exists_times (timely : Timely clock now names) :
    ∃ times : List Nat, names.map clock = times.map some ∧ times.Pairwise (· < ·) := by
  refine ⟨names.map fun name => (clock name).getD 0, ?_, ?_⟩
  · rw [List.map_map]
    refine List.map_congr_left fun name member => ?_
    obtain ⟨time, -, at_⟩ := timely.past name member
    simp [at_]
  · refine List.pairwise_map.mpr (timely.ascending.imp ?_)
    rintro a b ⟨i, j, left, right, before⟩
    simpa [left, right] using before

end Timely

/-! ### What edits do to the order -/

theorem sublist_unlistEntry (table : SymbolTable α) (entry : Entry α) (axis : Axis)
    (key : String) :
    (((table.unlistEntry entry).index axis).under key).Sublist ((table.index axis).under key) := by
  rw [index_unlistEntry, Listing.under_unlist]
  split
  · exact List.filter_sublist
  · exact .refl _

/-- Deleting only takes names out of lists. -/
theorem sublist_delete (table : SymbolTable α) (name : String) (axis : Axis) (key : String) :
    (((table.delete name).2.index axis).under key).Sublist ((table.index axis).under key) := by
  unfold SymbolTable.delete
  split
  · cases axis <;> exact .refl _
  · split
    · next entry _ =>
        have fewer := table.sublist_unlistEntry entry axis key
        cases axis <;> exact fewer
    · exact .refl _

/-- Forgetting an alias touches no list. -/
theorem index_forgetAlias (table : SymbolTable α) (name : String) :
    (table.forgetAlias name).index = table.index := by
  unfold forgetAlias
  split <;> funext axis <;> cases axis <;> rfl

theorem Consistent.index_registerAlias (consistent : table.Consistent) {after : SymbolTable α}
    {aliasName target : String} (accepted : table.registerAlias aliasName target = .ok after) :
    after.index = table.index := by
  obtain ⟨canonical, -, -, rfl⟩ := consistent.registerAlias_accepted accepted
  split
  · rfl
  · rw [← index_forgetAlias table aliasName]
    funext axis
    cases axis <;> rfl

/-- All lists of a table are in the order of time. -/
def InOrder (clock : String → Option Nat) (now : Nat) (table : SymbolTable α) : Prop :=
  ∀ axis key, Timely clock now ((table.index axis).under key)

namespace InOrder

variable {clock clock' : String → Option Nat} {now : Nat}

theorem unlistEntry (ordered : table.InOrder clock now) (entry : Entry α) :
    (table.unlistEntry entry).InOrder clock now :=
  fun axis key => (ordered axis key).sublist (table.sublist_unlistEntry entry axis key)

theorem forgetAlias (ordered : table.InOrder clock now) (name : String) :
    (table.forgetAlias name).InOrder clock now := by
  intro axis key
  rw [index_forgetAlias]
  exact ordered axis key

/-- An entry that stands in no list is put last in the lists it belongs to. -/
theorem store (ordered : table.InOrder clock now) {entry : Entry α}
    (unlisted : ∀ axis key, entry.name ∉ (table.index axis).under key)
    (placed : clock' entry.name = some now)
    (same : ∀ name, name ≠ entry.name → clock' name = clock name) :
    (table.store entry).InOrder clock' (now + 1) := by
  intro axis key
  have others : ∀ name ∈ (table.index axis).under key, clock' name = clock name := by
    intro name member
    exact same name fun isEntry => unlisted axis key (isEntry ▸ member)
  rw [index_store]
  cases place : axis.key entry with
  | none => exact (ordered axis key).later others
  | some other =>
      simp only [Listing.list, if_neg (unlisted axis other), Listing.under_insert]
      by_cases here : key = other
      · subst here
        rw [if_pos rfl]
        exact (ordered axis key).concat others placed
      · rw [if_neg here]
        exact (ordered axis key).later others

/-- An entry that is replaced is taken out of its lists first. -/
theorem replace (ordered : table.InOrder clock now) (indexed : table.Indexed) {old entry : Entry α}
    (held : table.entries.get? old.name = some old) (named : entry.name = old.name)
    (placed : clock' entry.name = some now)
    (same : ∀ name, name ≠ entry.name → clock' name = clock name) :
    ((table.unlistEntry old).store entry).InOrder clock' (now + 1) := by
  refine (ordered.unlistEntry old).store (fun axis key => ?_) placed same
  rw [index_unlistEntry, Listing.mem_under_unlist, indexed axis, named, held]
  rintro ⟨there, elsewhere⟩
  exact elsewhere ⟨there, rfl⟩

/-- An edit that places nothing may move on with the clock. -/
theorem unmoved {after : SymbolTable α} (ordered : table.InOrder clock now)
    (same : ∀ name, clock' name = clock name)
    (fewer : ∀ axis key, ((after.index axis).under key).Sublist ((table.index axis).under key)) :
    after.InOrder clock' (now + 1) := by
  intro axis key
  exact ((ordered axis key).sublist (fewer axis key)).later fun name _ => same name

theorem register (ordered : table.InOrder clock now) (consistent : table.Consistent)
    (indexed : table.Indexed) {name : String} (placed : clock' name = some now)
    (same : ∀ other, other ≠ name → clock' other = clock other) (value : α) (reg : Registration) :
    (table.register name value reg).InOrder clock' (now + 1) := by
  have forgotten := ordered.forgetAlias name
  have indexed := indexed.forgetAlias name
  unfold SymbolTable.register
  dsimp only
  split
  · next old held =>
      have named : old.name = name := (consistent.forgetAlias name).named held
      exact forgotten.replace indexed (named ▸ held) rfl (named ▸ placed) (named ▸ same)
  · next fresh =>
      refine forgotten.store (fun axis key listed => ?_) placed same
      rw [indexed axis] at listed
      simp [Entry.make, fresh] at listed

end InOrder

/-- One step: an edit keeps the lists in the order of time. -/
theorem InOrder.edited {clock clock' : String → Option Nat} {now : Nat}
    (ordered : table.InOrder clock now) (consistent : table.Consistent) (indexed : table.Indexed)
    {edit : Edit α} (ticks : ∀ name, clock' name =
      if table.placed? edit = some name then some now else clock name) :
    (table.edited edit).InOrder clock' (now + 1) := by
  cases edit with
  | register name value reg =>
      refine ordered.register consistent indexed ?_ (fun other different => ?_) value reg
      · simp [ticks, placed?]
      · simp [ticks, placed?, different.symm]
  | updateMetadata name reg =>
      simp only [SymbolTable.edited, SymbolTable.updateMetadata]
      split
      · next entry found =>
          obtain ⟨canonical, -, held⟩ := Option.bind_eq_some_iff.mp found
          have named : entry.name = canonical := consistent.named held
          refine ordered.replace indexed (named ▸ held) rfl ?_ ?_
          · simp [ticks, placed?, found, Entry.relocate]
          · intro other different
            have different : entry.name ≠ other := different.symm
            simp [ticks, placed?, found, different]
      · next missing =>
          refine ordered.unmoved (fun other => ?_) fun _ _ => .refl _
          simp [ticks, placed?, missing]
  | registerAlias aliasName target =>
      refine ordered.unmoved (fun other => by simp [ticks, placed?]) fun axis key => ?_
      simp only [SymbolTable.edited]
      split
      · next after accepted => rw [consistent.index_registerAlias accepted]
      · exact .refl _
  | modifyValue name f =>
      refine ordered.unmoved (fun other => by simp [ticks, placed?]) fun axis key => ?_
      simp only [SymbolTable.edited, SymbolTable.modifyValue]
      split
      · exact .refl _
      · cases axis <;> exact .refl _
  | delete name =>
      refine ordered.unmoved (fun other => by simp [ticks, placed?]) fun axis key => ?_
      exact table.sublist_delete name axis key
  | clear =>
      refine ordered.unmoved (fun other => by simp [ticks, placed?]) fun axis key => ?_
      cases axis <;> exact List.nil_sublist _

/-- All steps: the lists of a table that edits build are in the order of time. -/
theorem inOrder_built (edits : List (Edit α)) :
    (built edits).InOrder (lastPlaced edits) edits.length := by
  induction edits using List.reverseRecOn with
  | nil =>
      intro axis key
      cases axis <;> exact ⟨by rintro _ ⟨⟩, .nil⟩
  | append_singleton edits edit ih =>
      have reachable := reachable_built edits
      rw [built_concat, List.length_append, List.length_singleton]
      exact ih.edited reachable.consistent reachable.indexed (lastPlaced_concat edits edit)

/-! ### Listings -/

/-- The list has exactly those entries that belong to it, each once, and the times at which
they were last placed ascend. -/
structure Chronicles (edits : List (Edit α)) (belongs : Entry α → Bool)
    (listed : List (Entry α)) : Prop where
  exact : listed.Perm ((built edits).toList.filter belongs)
  once : (listed.map Entry.name).Nodup
  ordered : ∃ times : List Nat, times.Pairwise (· < ·) ∧
    listed.map (fun entry => lastPlaced edits entry.name) = times.map some

theorem chronicles_listing (edits : List (Edit α)) (axis : Axis) (key : String) :
    Chronicles edits (axis.key · == some key) ((built edits).listing axis key) := by
  have reachable := reachable_built edits
  have timely := inOrder_built edits axis key
  rw [← map_name_listing reachable.consistent reachable.indexed] at timely
  have once : (((built edits).listing axis key).map Entry.name).Nodup := by
    refine timely.ascending.imp ?_
    rintro a b ⟨i, j, left, right, before⟩ rfl
    have : i = j := Option.some.inj (left.symm.trans right)
    omega
  refine ⟨?_, once, ?_⟩
  · refine (List.perm_ext_iff_of_nodup (once.of_map _)
      (reachable.consistent.nodup_toList.filter _)).mpr fun entry => ?_
    rw [reachable.mem_listing, List.mem_filter, reachable.consistent.mem_toList_iff, beq_iff_eq]
  · obtain ⟨times, same, ascending⟩ := timely.exists_times
    rw [List.map_map] at same
    exact ⟨times, ascending, same⟩

/-- In every table that edits build, the entries of a module are exactly those that say so,
each once, in the order of the times at which they were last registered or updated, and
likewise for namespaces. So no entry is listed under two modules or under two namespaces. -/
theorem listings_exact_and_chronological (edits : List (Edit α)) :
    (∀ m, Chronicles edits (·.moduleName == some m) ((built edits).inModule m)) ∧
    (∀ space, Chronicles edits (·.namespaceName == some space)
      ((built edits).inNamespace space)) ∧
    (∀ entry m m', entry ∈ (built edits).inModule m → entry ∈ (built edits).inModule m' →
      m = m') ∧
    ∀ entry space space', entry ∈ (built edits).inNamespace space →
      entry ∈ (built edits).inNamespace space' → space = space' := by
  have placed {axis : Axis} {entry : Entry α} {key key' : String}
      (listed : entry ∈ (built edits).listing axis key)
      (listed' : entry ∈ (built edits).listing axis key') : key = key' := by
    rw [(reachable_built edits).mem_listing] at listed listed'
    exact Option.some.inj (listed.2.symm.trans listed'.2)
  exact ⟨chronicles_listing edits .module, chronicles_listing edits .space,
    fun _ _ _ => @placed .module _ _ _, fun _ _ _ => @placed .space _ _ _⟩

end SymbolTable

end ModuleTyping
