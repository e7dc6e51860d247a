import ModuleTyping.Proofs.SymbolTable.Constructors
import ModuleTyping.Proofs.SymbolTable.Resemblance

/-!
# Edits in another order

Registrations and deletions under different names commute, and so do deletions, but for the
order in which a table lists its entries (`edited_comm`). Registering the constructors of a
sum is a sequence of such edits. So two sums may be registered in either order if neither
declares or replaces a constructor that the other declares (`registered_comm`).
-/

namespace ModuleTyping

namespace SymbolTable

variable {α : Type} {table a b c : SymbolTable α}

/-- The edits are registrations and deletions that do not write to one another's name. -/
def Edit.Apart : Edit α → Edit α → Prop
  | .register name _ _, .register other _ _ => name ≠ other
  | .register name _ _, .delete other => name ≠ other
  | .delete name, .register other _ _ => name ≠ other
  | .delete _, .delete _ => True
  | _, _ => False

theorem Reordered.delete (same : a.Reordered b) (name : String) :
    (a.delete name).2.Reordered (b.delete name).2 where
  reachable := same.reachable.after_edit (.delete name)
  reachable' := same.reachable'.after_edit (.delete name)
  entries := by
    refine Dict.ext_get? fun key => ?_
    rw [same.reachable.consistent.get?_entries_delete,
      same.reachable'.consistent.get?_entries_delete, same.entries]
  aliases := by
    refine Dict.ext_get? fun other => ?_
    rw [same.reachable.consistent.get?_aliases_delete,
      same.reachable'.consistent.get?_aliases_delete, same.aliases]

theorem Reordered.symm (same : a.Reordered b) : b.Reordered a :=
  ⟨same.reachable', same.reachable, same.entries.symm, same.aliases.symm⟩

theorem Reachable.delete_comm (reachable : table.Reachable) (name other : String) :
    ((table.delete name).2.delete other).2.Reordered ((table.delete other).2.delete name).2 := by
  have first : (table.delete name).2.Reachable := reachable.after_edit (.delete name)
  have second : (table.delete other).2.Reachable := reachable.after_edit (.delete other)
  refine ⟨first.after_edit (.delete other), second.after_edit (.delete name), ?_, ?_⟩
  · refine Dict.ext_get? fun key => ?_
    rw [first.consistent.get?_entries_delete, second.consistent.get?_entries_delete,
      reachable.consistent.get?_entries_delete, reachable.consistent.get?_entries_delete]
    cases table.entries.get? key with
    | none => grind
    | some entry =>
        have dropped := entry.dropAlias_comm name other
        grind
  · refine Dict.ext_get? fun key => ?_
    rw [first.consistent.get?_aliases_delete, second.consistent.get?_aliases_delete,
      reachable.consistent.get?_aliases_delete, reachable.consistent.get?_aliases_delete]
    grind

theorem Reachable.delete_register_comm (reachable : table.Reachable) {name other : String}
    (different : name ≠ other) (value : α) (reg : Registration) :
    ((table.delete name).2.register other value reg).Reordered
      ((table.register other value reg).delete name).2 := by
  have first : (table.delete name).2.Reachable := reachable.after_edit (.delete name)
  have second := reachable.after_register other value reg
  refine ⟨first.after_register other value reg, second.after_edit (.delete name), ?_, ?_⟩
  · refine Dict.ext_get? fun key => ?_
    rw [first.consistent.get?_entries_register, second.consistent.get?_entries_delete,
      reachable.consistent.get?_entries_delete, reachable.consistent.get?_entries_delete,
      reachable.consistent.get?_entries_register, if_neg (Ne.symm different)]
    have dropped (entry : Entry α) := entry.dropAlias_comm name other
    by_cases isOther : key = other
    · subst isOther
      rw [if_pos rfl, if_neg (Ne.symm different), if_pos rfl, Option.map_some,
        ← Entry.registered_dropAlias, Option.map_map, Option.map_map]
      simp only [Function.comp_def, dropped]
    · rw [if_neg isOther, if_neg isOther]
      split
      · rfl
      · rw [Option.map_map, Option.map_map]
        simp only [Function.comp_def, dropped]
  · refine Dict.ext_get? fun key => ?_
    rw [get?_aliases_register, reachable.consistent.get?_aliases_delete,
      second.consistent.get?_aliases_delete, get?_aliases_register]
    grind

theorem edited_comm (reachable : table.Reachable) {edit other : Edit α} (apart : edit.Apart other) :
    ((table.edited edit).edited other).Reordered ((table.edited other).edited edit) := by
  cases edit with
  | register name value reg =>
      cases other with
      | register other value' reg' => exact reachable.register_comm apart value value' reg reg'
      | delete other => exact (reachable.delete_register_comm (Ne.symm apart) value reg).symm
      | _ => exact apart.elim
  | delete name =>
      cases other with
      | register other value' reg' => exact reachable.delete_register_comm apart value' reg'
      | delete other => exact reachable.delete_comm name other
      | _ => exact apart.elim
  | _ => exact apart.elim

theorem Reordered.registerAlias (same : a.Reordered b) (aliasName target : String) :
    (a.edited (.registerAlias aliasName target)).entries =
        (b.edited (.registerAlias aliasName target)).entries ∧
      (a.edited (.registerAlias aliasName target)).aliases =
        (b.edited (.registerAlias aliasName target)).aliases := by
  simp only [SymbolTable.edited, SymbolTable.registerAlias, same.canonicalName?_eq, same.entries,
    same.aliases]
  cases b.canonicalName? target with
  | none => exact ⟨same.entries, same.aliases⟩
  | some canonical =>
      by_cases taken : b.entries.contains aliasName = true
      · simp only [if_pos taken]
        exact ⟨same.entries, same.aliases⟩
      · simp only [if_neg taken]
        exact ⟨trivial, trivial⟩

/-- What an edit does to the entries and aliases does not depend on the listings. -/
theorem Reordered.edited (same : a.Reordered b) (edit : Edit α) :
    (a.edited edit).Reordered (b.edited edit) := by
  have after := same.reachable.after_edit edit
  have after' := same.reachable'.after_edit edit
  cases edit with
  | register name value reg => exact same.register name value reg
  | registerAlias aliasName target =>
      obtain ⟨entries, aliases⟩ := same.registerAlias aliasName target
      exact ⟨after, after', entries, aliases⟩
  | modifyValue name f =>
      refine ⟨after, after', ?_, ?_⟩
      all_goals
        simp only [SymbolTable.edited, SymbolTable.modifyValue, same.canonicalName?_eq]
        split <;> simp only [same.entries, same.aliases]
  | updateMetadata name reg =>
      refine ⟨after, after', ?_, ?_⟩
      all_goals
        simp only [SymbolTable.edited, SymbolTable.updateMetadata, same.get?_eq]
        split <;> simp only [store, unlistEntry, same.entries, same.aliases]
  | delete name => exact same.delete name
  | clear => exact .refl after

theorem Reordered.foldl_edited (same : a.Reordered b) (edits : List (Edit α)) :
    (edits.foldl SymbolTable.edited a).Reordered (edits.foldl SymbolTable.edited b) := by
  induction edits generalizing a b with
  | nil => exact same
  | cons edit edits ih => exact ih (same.edited edit)

theorem edited_foldl_comm (reachable : table.Reachable) {edit : Edit α} {others : List (Edit α)}
    (apart : ∀ other ∈ others, edit.Apart other) :
    (others.foldl edited (table.edited edit)).Reordered
      ((others.foldl edited table).edited edit) := by
  induction others generalizing table with
  | nil => exact .refl (reachable.after_edit edit)
  | cons other others ih =>
      have swapped := edited_comm reachable (apart other List.mem_cons_self)
      refine (swapped.foldl_edited others).trans ?_
      exact ih (reachable.after_edit other) fun next listed =>
        apart next (List.mem_cons_of_mem _ listed)

/-- Sequences of edits commute if each edit of the one is apart from each of the other. -/
theorem foldl_edited_comm (reachable : table.Reachable) {edits others : List (Edit α)}
    (apart : ∀ edit ∈ edits, ∀ other ∈ others, edit.Apart other) :
    (others.foldl edited (edits.foldl edited table)).Reordered
      (edits.foldl edited (others.foldl edited table)) := by
  induction edits generalizing table with
  | nil => exact (Reordered.refl reachable).foldl_edited others
  | cons edit edits ih =>
      have first := edited_foldl_comm reachable (apart edit List.mem_cons_self)
      have rest := ih (reachable.after_edit edit) fun next listed =>
        apart next (List.mem_cons_of_mem _ listed)
      exact rest.trans (first.foldl_edited edits)

end SymbolTable

/-- A table that resembles another resembles every reordering of it. -/
theorem SymbolTable.Resembles.reordered {α : Type} {r : α → α → Prop} {a b c : SymbolTable α}
    (resembles : a.Resembles r b) (same : b.Reordered c) : a.Resembles r c where
  reachable := resembles.reachable
  reachable' := same.reachable'
  aliases name := by rw [resembles.aliases, same.aliases]
  entries key := same.entries ▸ resembles.entries key

/-! ### Registering sums -/

namespace ConstructorTable

open SymbolTable (Edit edited Reordered)

variable {info info' : TypeInfo} {variants variants' : List (String × List Ty)}

theorem sumEdits_apart {old old' : List String}
    (apart : ∀ name ∈ variants.map Prod.fst, name ∉ variants'.map Prod.fst)
    (kept : ∀ name ∈ old, name ∉ variants'.map Prod.fst)
    (kept' : ∀ name ∈ old', name ∉ variants.map Prod.fst) {reg reg' : Registration} :
    ∀ edit ∈ sumEdits old info variants reg, ∀ other ∈ sumEdits old' info' variants' reg',
      edit.Apart other := by
  intro edit listed other listed'
  simp only [sumEdits, List.mem_append, List.mem_map] at listed listed'
  obtain ⟨name, isOld, rfl⟩ | ⟨variant, member, rfl⟩ := listed <;>
    obtain ⟨name', isOld', rfl⟩ | ⟨variant', member', rfl⟩ := listed'
  · trivial
  · rintro rfl
    exact kept _ isOld (List.mem_map_of_mem member')
  · intro same
    exact kept' _ isOld' (same ▸ List.mem_map_of_mem member)
  · intro same
    exact apart _ (List.mem_map_of_mem member) (same ▸ List.mem_map_of_mem member')

/-- The constructor that a declaration of a sum gives a name, the last one if there are
several. -/
def declared? (info : TypeInfo) (variants : List (String × List Ty)) (name : String) :
    Option Constructor :=
  (variants.reverse.find? (·.1 == name)).map fun variant =>
    { sumName := info.name, signature := signatureOf info variant }

theorem declared?_eq_none {name : String} :
    declared? info variants name = none ↔ name ∉ variants.map Prod.fst := by
  rw [declared?, Option.map_eq_none_iff, List.find?_eq_none]
  simp only [List.mem_reverse, beq_iff_eq, List.mem_map, not_exists, not_and]

theorem get?_registerSum (isSum : info.ty.variants? = some variants)
    (constructors : ConstructorTable) (functions : FunctionTable) (reg : Registration)
    (name : String) : (constructors.registerSum functions info reg).2.1.get? name =
      (declared? info variants name).or
        (if name ∈ constructors.variantsOf info.name then none else constructors.get? name) := by
  have added (variants : List (String × List Ty)) (tables : ConstructorTable × FunctionTable) :
      ((variants.map (signatureOf info)).foldl (addConstructor info.name reg) tables).1.get? name =
        (declared? info variants name).or (tables.1.get? name) := by
    induction variants generalizing tables with
    | nil => rfl
    | cons variant variants ih =>
        rw [List.map_cons, List.foldl_cons, ih]
        have inserted :
            (addConstructor info.name reg tables (signatureOf info variant)).1.get? name =
              if name = variant.1 then
                some { sumName := info.name, signature := signatureOf info variant }
              else tables.1.get? name := Dict.get?_insert ..
        rw [inserted, declared?, declared?, List.reverse_cons, List.find?_append]
        cases variants.reverse.find? (·.1 == name) with
        | some found => rfl
        | none =>
            by_cases same : name = variant.1
            · simp [same]
            · simp [same, Ne.symm same]
  rw [registerSum_eq isSum, added]
  exact congrArg _ (Dict.get?_foldl_erase ..)

/-- The tables after the constructors of a sum are registered. -/
def registered (tables : ConstructorTable × FunctionTable) (info : TypeInfo) (reg : Registration) :
    ConstructorTable × FunctionTable :=
  (tables.1.registerSum tables.2 info reg).2

/-- The tables hold the same, but for the order in which functions are listed. -/
structure Shuffled (tables tables' : ConstructorTable × FunctionTable) : Prop where
  constructors : ∀ name, tables.1.get? name = tables'.1.get? name
  variantsOf : ∀ name, tables.1.variantsOf name = tables'.1.variantsOf name
  functions : tables.2.table.Reordered tables'.2.table

theorem Shuffled.refl {tables : ConstructorTable × FunctionTable}
    (reachable : tables.2.table.Reachable) : Shuffled tables tables :=
  ⟨fun _ => rfl, fun _ => rfl, .refl reachable⟩

section Exchange

variable {tables : ConstructorTable × FunctionTable} (isSum : info.ty.variants? = some variants)

include isSum

theorem variantsOf_registered (tables : ConstructorTable × FunctionTable) (reg : Registration)
    (name : String) : (registered tables info reg).1.variantsOf name =
      if name = info.name then variants.map Prod.fst else tables.1.variantsOf name :=
  variantsOf_registerSum (by rw [TypeInfo.variantNames?, isSum, Option.map_some]) _ _ _ _

variable (isSum' : info'.ty.variants? = some variants') (different : info.name ≠ info'.name)

include isSum' different

/-- What one sum does to a name that the other one declares is undone, or not done at all. -/
theorem get?_registered_registered (reg reg' : Registration) (name : String) :
    (registered (registered tables info reg) info' reg').1.get? name =
      (declared? info' variants' name).or
        (if name ∈ tables.1.variantsOf info'.name then none
          else (declared? info variants name).or
            (if name ∈ tables.1.variantsOf info.name then none else tables.1.get? name)) := by
  refine (get?_registerSum isSum' _ _ _ _).trans ?_
  rw [variantsOf_registered isSum, if_neg (Ne.symm different), registered, get?_registerSum isSum]

theorem table_registered_registered (reg reg' : Registration) :
    (registered (registered tables info reg) info' reg').2.table =
      (sumEdits (tables.1.variantsOf info'.name) info' variants' reg').foldl edited
        ((sumEdits (tables.1.variantsOf info.name) info variants reg).foldl edited
          tables.2.table) := by
  refine (table_registerSum isSum' _ _ _).trans ?_
  rw [variantsOf_registered isSum, if_neg (Ne.symm different), registered, table_registerSum isSum]

variable (apart : ∀ name ∈ variants.map Prod.fst, name ∉ variants'.map Prod.fst)
  (kept : ∀ name ∈ tables.1.variantsOf info.name, name ∉ variants'.map Prod.fst)
  (kept' : ∀ name ∈ tables.1.variantsOf info'.name, name ∉ variants.map Prod.fst)

include apart kept kept'

theorem get?_registered_comm (reg reg' : Registration) (name : String) :
    (registered (registered tables info reg) info' reg').1.get? name =
      (registered (registered tables info' reg') info reg).1.get? name := by
  have new : declared? info variants name = none ↔ _ := declared?_eq_none
  have new' : declared? info' variants' name = none ↔ _ := declared?_eq_none
  rw [get?_registered_registered isSum isSum' different,
    get?_registered_registered isSum' isSum (Ne.symm different)]
  by_cases listed : name ∈ variants.map Prod.fst
  · rw [new'.mpr (apart name listed), if_neg fun old => kept' name old listed]
    cases found : declared? info variants name with
    | none => exact (new.mp found listed).elim
    | some constructor => rfl
  · rw [new.mpr listed]
    by_cases listed' : name ∈ variants'.map Prod.fst
    · have free : name ∉ tables.1.variantsOf info.name := fun old => kept name old listed'
      simp only [if_neg free]
      cases found : declared? info' variants' name with
      | none => exact (new'.mp found listed').elim
      | some constructor => rfl
    · rw [new'.mpr listed']
      simp only [Option.none_or]
      grind

/-- Two sums may be registered in either order, if neither declares or replaces a
constructor that the other one declares. -/
theorem registered_comm (reachable : tables.2.table.Reachable) (reg reg' : Registration) :
    Shuffled (registered (registered tables info reg) info' reg')
      (registered (registered tables info' reg') info reg) where
  constructors := get?_registered_comm isSum isSum' different apart kept kept' reg reg'
  variantsOf name := by
    rw [variantsOf_registered isSum', variantsOf_registered isSum, variantsOf_registered isSum,
      variantsOf_registered isSum']
    grind
  functions := by
    rw [table_registered_registered isSum isSum' different,
      table_registered_registered isSum' isSum (Ne.symm different)]
    exact SymbolTable.foldl_edited_comm reachable (sumEdits_apart apart kept kept')

end Exchange

end ConstructorTable

end ModuleTyping
