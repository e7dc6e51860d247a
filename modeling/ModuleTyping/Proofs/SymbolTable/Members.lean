import ModuleTyping.Proofs.SymbolTable.Constructors
import ModuleTyping.Proofs.SymbolTable.Declared

/-!
# Members that keys stand for

The key of a member joins its container and its name by a dot. In a table whose names have
no dots and whose aliases are keys for their own targets, a key never stands for a member of
another name, whatever is registered, aliased or deleted (`SymbolTable.Knows`). So a key once
made for `f` goes on standing for `f`, and what `f` is, the last declaration of `f` decides.
-/

namespace ModuleTyping

open ModulePath (memberKey)

/-! ### Names and keys -/

/-- The name has no dot in it. -/
def Undotted (name : String) : Prop :=
  '.' ∉ name.toList

instance (name : String) : Decidable (Undotted name) :=
  inferInstanceAs (Decidable (¬ _))

theorem toList_memberKey (container member : String) :
    (memberKey container member).toList = container.toList ++ '.' :: member.toList := by
  simp [memberKey]

theorem not_undotted_memberKey (container member : String) :
    ¬ Undotted (memberKey container member) := by
  simp [Undotted, toList_memberKey]

/-- A key tells its member, if members have no dots. -/
theorem member_of_memberKey_eq {container container' member member' : String}
    (undotted : Undotted member) (undotted' : Undotted member')
    (same : memberKey container member = memberKey container' member') : member = member' := by
  have chars := congrArg String.toList same
  rw [toList_memberKey, toList_memberKey] at chars
  -- Where the containers differ in length, the dot of one key lies in the member of the other.
  rcases List.append_eq_append_iff.mp chars with ⟨between, -, rest⟩ | ⟨between, -, rest⟩
  · cases between with
    | nil => exact String.toList_inj.mp (List.cons.inj rest).2
    | cons c between =>
        refine absurd ?_ undotted
        simp [(List.cons.inj rest).2]
  · cases between with
    | nil => exact (String.toList_inj.mp (List.cons.inj rest).2).symm
    | cons c between =>
        refine absurd ?_ undotted'
        simp [(List.cons.inj rest).2]

/-! ### One function in the tables -/

namespace SymbolTable

/-- Names have no dots and keys stand for their members. Among the names, `f` was last
declared as `declared` says, and it is reached through each of the containers. -/
structure Knows (f : String) (declared : Option (Entry Signature)) (containers : String → Prop)
    (table : SymbolTable Signature) : Prop where
  reachable : table.Reachable
  undotted : ∀ {name}, table.entries.contains name = true → Undotted name
  keys : ∀ {key name}, table.aliases.get? key = some name →
    ∃ container, key = memberKey container name
  declared : table.declared? f = declared
  reached : ∀ container, containers container →
    table.canonicalName? (memberKey container f) = some f

namespace Knows

variable {f : String} {declared : Option (Entry Signature)} {containers : String → Prop}
variable {table : SymbolTable Signature}

theorem empty (f : String) : Knows f none (fun _ => False) (∅ : SymbolTable Signature) where
  reachable := ⟨[], rfl⟩
  undotted := by rintro _ ⟨⟩
  keys := by rintro _ _ ⟨⟩
  declared := rfl
  reached := by rintro _ ⟨⟩

theorem unused (knows : table.Knows f declared containers) {name : String}
    (undotted : Undotted name) : table.aliases.get? name = none := by
  cases used : table.aliases.get? name with
  | none => rfl
  | some target =>
      obtain ⟨container, rfl⟩ := knows.keys used
      exact absurd undotted (not_undotted_memberKey container target)

theorem register (knows : table.Knows f declared containers) {name : String}
    (undotted : Undotted name) (value : Signature) (reg : Registration) :
    (table.register name value reg).Knows f
      (if f = name then some (.make name value reg) else declared) containers where
  reachable := knows.reachable.after_register name value reg
  undotted := by
    intro other registered
    rw [← isSome_declared?, knows.reachable.consistent.declared?_register] at registered
    split at registered
    · next same => exact same ▸ undotted
    · exact knows.undotted ((isSome_declared? table other).symm.trans registered)
  keys := by
    intro key target used
    rw [get?_aliases_register] at used
    exact knows.keys (Option.ite_none_left_eq_some.mp used).2
  declared := by rw [knows.reachable.consistent.declared?_register, knows.declared]
  reached := by
    intro container reaches
    have different : memberKey container f ≠ name := by
      rintro rfl
      exact not_undotted_memberKey _ _ undotted
    rw [knows.reachable.consistent.canonicalName?_register, if_neg different]
    exact knows.reached container reaches

/-- A plain name that stands for something stands for itself. -/
theorem canonicalName?_of_undotted (knows : table.Knows f declared containers) {name : String}
    (undotted : Undotted name) {canonical : String}
    (resolved : table.canonicalName? name = some canonical) : canonical = name := by
  unfold canonicalName? at resolved
  rw [knows.unused undotted] at resolved
  split at resolved
  · exact (Option.some.inj resolved).symm
  · cases resolved

/-- A key for a member of some container, which reaches `f` if the member is `f`. -/
theorem registerAlias (knows : table.Knows f declared containers) {container name : String}
    (undotted : Undotted name) (plain : Undotted f) {after : SymbolTable Signature}
    (accepted : table.registerAlias (memberKey container name) name = .ok after) :
    after.Knows f declared
      (fun other => containers other ∨ other = container ∧ name = f) := by
  have consistent := knows.reachable.consistent
  obtain ⟨canonical, resolved, -, -⟩ := consistent.registerAlias_accepted accepted
  obtain rfl := knows.canonicalName?_of_undotted undotted resolved
  refine ⟨knows.reachable.after_registerAlias accepted, ?_, ?_, ?_, ?_⟩
  · intro other registered
    rw [← isSome_declared?, consistent.declared?_registerAlias accepted, isSome_declared?]
      at registered
    exact knows.undotted registered
  · intro key target used
    rw [consistent.get?_aliases_registerAlias accepted, resolved] at used
    split at used
    · next same =>
      obtain rfl := Option.some.inj used
      exact ⟨container, same⟩
    · exact knows.keys used
  · rw [consistent.declared?_registerAlias accepted, knows.declared]
  · intro other reaches
    rw [consistent.canonicalName?_registerAlias accepted, resolved]
    split
    · next same => rw [member_of_memberKey_eq plain undotted same]
    · next different =>
      rcases reaches with reaches | ⟨rfl, rfl⟩
      · exact knows.reached other reaches
      · exact absurd rfl different

theorem delete (knows : table.Knows f declared containers) {name : String}
    (undotted : Undotted name) (other : name ≠ f) :
    (table.delete name).2.Knows f declared containers where
  reachable := knows.reachable.after_edit (.delete name)
  undotted := by
    intro found registered
    rw [← isSome_declared?, knows.reachable.consistent.declared?_delete (knows.unused undotted)]
      at registered
    split at registered
    · cases registered
    · exact knows.undotted ((isSome_declared? table found).symm.trans registered)
  keys := fun used =>
    knows.keys (knows.reachable.consistent.get?_aliases_of_delete (knows.unused undotted) used)
  declared := by
    rw [knows.reachable.consistent.declared?_delete (knows.unused undotted),
      if_neg (Ne.symm other), knows.declared]
  reached := by
    intro container reaches
    have resolved := knows.reached container reaches
    cases registered : table.entries.contains name with
    | true =>
        rw [knows.reachable.consistent.canonicalName?_delete_registered registered, resolved,
          if_neg (by simpa using Ne.symm other)]
    | false =>
        have unresolved : table.canonicalName? name = none := by
          unfold canonicalName?
          rw [registered, knows.unused undotted]
          rfl
        rwa [delete_of_unresolved unresolved]

theorem mono (knows : table.Knows f declared containers) {containers' : String → Prop}
    (fewer : ∀ container, containers' container → containers container) :
    table.Knows f declared containers' :=
  { knows with
    reached := fun container reaches => knows.reached container (fewer container reaches) }

end Knows

end SymbolTable

namespace FunctionTable

/-- The functions that are exported from a module, by name. -/
def exportedFrom (functions : FunctionTable) (moduleName : String) : List String :=
  ((functions.inModule moduleName).filter (·.exported)).map Entry.name

theorem mem_exportedFrom {functions : FunctionTable} (reachable : functions.table.Reachable)
    {moduleName name : String} : name ∈ functions.exportedFrom moduleName ↔
      ∃ entry, functions.table.declared? name = some entry ∧
        entry.moduleName = some moduleName ∧ entry.exported = true := by
  have listed {entry : Entry Signature} : entry ∈ functions.inModule moduleName ↔
      functions.table.entries.get? entry.name = some entry ∧
        entry.moduleName = some moduleName :=
    (reachable.mem_listing : entry ∈ functions.table.listing .module moduleName ↔ _)
  unfold exportedFrom SymbolTable.declared?
  simp only [List.mem_map, List.mem_filter, listed, Option.map_eq_some_iff]
  constructor
  · rintro ⟨entry, ⟨⟨held, owned⟩, exported⟩, rfl⟩
    exact ⟨entry.bare, ⟨entry, held, rfl⟩, owned, exported⟩
  · rintro ⟨_, ⟨entry, held, rfl⟩, owned, exported⟩
    obtain rfl := reachable.consistent.named held
    exact ⟨entry, ⟨⟨held, owned⟩, exported⟩, rfl⟩

end FunctionTable

theorem SymbolTable.Knows.undotted_of_exported {f : String}
    {declared : Option (Entry Signature)} {containers : String → Prop} {functions : FunctionTable}
    (knows : functions.table.Knows f declared containers) {moduleName name : String}
    (member : name ∈ functions.exportedFrom moduleName) : Undotted name := by
  obtain ⟨entry, held, -⟩ := (FunctionTable.mem_exportedFrom knows.reachable).mp member
  refine knows.undotted ?_
  rw [← isSome_declared?, held]
  rfl

namespace ConstructorTable

/-- The constructors on record have no dots in their names, and none is called `f`. -/
def Spares (f : String) (constructors : ConstructorTable) : Prop :=
  ∀ sumName, ∀ variant ∈ constructors.variantsOf sumName, Undotted variant ∧ variant ≠ f

variable {f : String} {declared : Option (Entry Signature)} {containers : String → Prop}

/-- Registering a sum whose constructors are called otherwise. -/
theorem knows_registerSum {constructors : ConstructorTable} {functions : FunctionTable}
    (knows : functions.table.Knows f declared containers) (spares : constructors.Spares f)
    (info : TypeInfo)
    (others : ∀ variants, info.ty.variants? = some variants →
      ∀ variant ∈ variants, Undotted variant.1 ∧ variant.1 ≠ f)
    (reg : Registration) :
    (constructors.registerSum functions info reg).2.2.table.Knows f declared containers ∧
      (constructors.registerSum functions info reg).2.1.Spares f := by
  cases isSum : info.ty.variants? with
  | none =>
      rw [registerSum_other _ _ (Option.map_eq_none_iff.mpr isSum)]
      exact ⟨knows, spares⟩
  | some variants =>
      constructor
      · rw [table_registerSum isSum]
        refine List.foldlRecOn _ SymbolTable.edited knows fun table knows edit listed => ?_
        simp only [sumEdits, List.mem_append, List.mem_map] at listed
        obtain ⟨name, old, rfl⟩ | ⟨variant, member, rfl⟩ := listed
        · obtain ⟨undotted, other⟩ := spares info.name name old
          exact knows.delete undotted other
        · obtain ⟨undotted, other⟩ := others variants isSum variant member
          have registered := knows.register undotted (signatureOf info variant) reg
          rwa [if_neg (Ne.symm other)] at registered
      · intro sumName name listed
        rw [variantsOf_registerSum (Option.map_eq_some_iff.mpr ⟨_, isSum, rfl⟩)] at listed
        split at listed
        · obtain ⟨variant, member, rfl⟩ := List.mem_map.mp listed
          exact others variants isSum variant member
        · exact spares sumName name listed

end ConstructorTable

end ModuleTyping
