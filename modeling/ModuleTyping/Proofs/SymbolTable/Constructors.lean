import Mathlib.Data.List.Induction
import ModuleTyping.Constructors
import ModuleTyping.Proofs.SymbolTable.Reordering

/-!
# Declaring sums again

Registering a sum drops the constructors that an earlier declaration of the sum left and
then adds its own, in the table of constructors and in that of functions alike. Both are
done by the names of the variants. So a variant that two sums share belongs to both of them
as far as dropping is concerned: when one of them is declared again without it, the other
one loses its constructor too, and still lists it.

That is the only way to lose a constructor (`contains_declareAll`): a variant that a sum
lists is a constructor and a function unless another sum dropped it since.

To the table of functions, registering a sum is a sequence of edits (`table_registerSum`).
-/

namespace ModuleTyping

/-- The names of the variants of a declared sum. -/
def TypeInfo.variantNames? (info : TypeInfo) : Option (List String) :=
  info.ty.variants?.map (·.map Prod.fst)

namespace FunctionTable

/-- The table is consistent and has no aliases. -/
structure Unaliased (functions : FunctionTable) : Prop where
  consistent : functions.table.Consistent
  unused : ∀ name, functions.table.aliases.get? name = none

namespace Unaliased

variable {functions : FunctionTable}

theorem empty : (∅ : FunctionTable).Unaliased :=
  ⟨.empty, fun _ => rfl⟩

theorem contains_eq (unaliased : functions.Unaliased) (name : String) :
    functions.contains name = (functions.table.entries.get? name).isSome := by
  unfold contains SymbolTable.contains SymbolTable.canonicalName? Dict.contains
  rw [unaliased.unused]
  split
  · next held => simp [held]
  · next absent => simpa using absent

theorem delete (unaliased : functions.Unaliased) (name : String) :
    (functions.delete name).2.Unaliased where
  consistent := unaliased.consistent.delete name
  unused other := by
    show (functions.table.delete name).2.aliases.get? other = none
    rw [unaliased.consistent.get?_aliases_delete, unaliased.unused, ite_self]

theorem contains_delete (unaliased : functions.Unaliased) (name other : String) :
    (functions.delete name).2.contains other = (functions.contains other && other != name) := by
  rw [(unaliased.delete name).contains_eq, unaliased.contains_eq]
  show ((functions.table.delete name).2.entries.get? other).isSome = _
  rw [unaliased.consistent.get?_entries_delete]
  by_cases same : other = name
  · simp [same]
  · simp [same]

theorem register (unaliased : functions.Unaliased) (sig : Signature) (reg : Registration) :
    (functions.register sig reg).Unaliased where
  consistent := unaliased.consistent.edited (.register sig.name sig reg)
  unused other := by
    show (functions.table.register sig.name sig reg).aliases.get? other = none
    rw [SymbolTable.get?_aliases_register, unaliased.unused, ite_self]

theorem contains_register (unaliased : functions.Unaliased) (sig : Signature)
    (reg : Registration) (other : String) :
    (functions.register sig reg).contains other =
      (other == sig.name || functions.contains other) := by
  rw [(unaliased.register sig reg).contains_eq, unaliased.contains_eq]
  show ((functions.table.register sig.name sig reg).entries.get? other).isSome = _
  rw [unaliased.consistent.get?_entries_register]
  by_cases same : other = sig.name
  · simp [same]
  · simp [same]

theorem foldl_delete (unaliased : functions.Unaliased) (names : List String) :
    (names.foldl (fun functions name => (functions.delete name).2) functions).Unaliased ∧
      ∀ other, (names.foldl (fun functions name => (functions.delete name).2) functions).contains
        other = (functions.contains other && !names.contains other) := by
  induction names generalizing functions with
  | nil => exact ⟨unaliased, fun other => by simp⟩
  | cons name names ih =>
      obtain ⟨after, contains⟩ := ih (unaliased.delete name)
      refine ⟨after, fun other => (contains other).trans ?_⟩
      rw [unaliased.contains_delete, List.contains_cons]
      cases functions.contains other <;> cases same : other == name <;> simp [bne, same]

theorem foldl_register (unaliased : functions.Unaliased) (signatures : List Signature)
    (reg : Registration) :
    (signatures.foldl (·.register · reg) functions).Unaliased ∧
      ∀ other, (signatures.foldl (·.register · reg) functions).contains other =
        ((signatures.map Signature.name).contains other || functions.contains other) := by
  induction signatures generalizing functions with
  | nil => exact ⟨unaliased, fun other => by simp⟩
  | cons sig signatures ih =>
      obtain ⟨after, contains⟩ := ih (unaliased.register sig reg)
      refine ⟨after, fun other => (contains other).trans ?_⟩
      rw [unaliased.contains_register, List.map_cons, List.contains_cons]
      cases other == sig.name <;> simp

end Unaliased

end FunctionTable

namespace ConstructorTable

/-! ### What a declaration does -/

theorem variantsOf_addConstructor (sumName : String) (reg : Registration)
    (tables : ConstructorTable × FunctionTable) (sig : Signature) (other : String) :
    (addConstructor sumName reg tables sig).1.variantsOf other =
      if other = sumName then tables.1.variantsOf sumName ++ [sig.name]
      else tables.1.variantsOf other := by
  unfold addConstructor variantsOf
  rw [Dict.get?_insert]
  split <;> rfl

theorem variantsOf_forgetSum (constructors : ConstructorTable) (functions : FunctionTable)
    (sumName other : String) : (constructors.forgetSum functions sumName).1.variantsOf other =
      if other = sumName then [] else constructors.variantsOf other := by
  unfold forgetSum variantsOf
  rw [Dict.get?_erase]
  split <;> rfl

theorem contains_addConstructor (sumName : String) (reg : Registration)
    (tables : ConstructorTable × FunctionTable) (sig : Signature) (name : String) :
    (addConstructor sumName reg tables sig).1.contains name =
      (name == sig.name || tables.1.contains name) := by
  unfold addConstructor contains Dict.contains
  rw [Dict.get?_insert]
  by_cases same : name = sig.name
  · simp [same]
  · simp [same]

theorem contains_forgetSum (constructors : ConstructorTable) (functions : FunctionTable)
    (sumName name : String) : (constructors.forgetSum functions sumName).1.contains name =
      (constructors.contains name && !(constructors.variantsOf sumName).contains name) := by
  unfold forgetSum contains Dict.contains
  rw [Dict.get?_foldl_erase]
  by_cases listed : name ∈ constructors.variantsOf sumName
  · simp [listed]
  · simp [listed]

/-- Adding constructors one after another. -/
theorem foldl_addConstructor (sumName : String) (reg : Registration) (signatures : List Signature)
    (tables : ConstructorTable × FunctionTable) :
    let after := signatures.foldl (addConstructor sumName reg) tables
    after.2 = signatures.foldl (·.register · reg) tables.2 ∧
      (∀ other, after.1.variantsOf other =
        if other = sumName then tables.1.variantsOf sumName ++ signatures.map Signature.name
        else tables.1.variantsOf other) ∧
      ∀ name, after.1.contains name =
        ((signatures.map Signature.name).contains name || tables.1.contains name) := by
  induction signatures generalizing tables with
  | nil =>
      refine ⟨rfl, fun other => ?_, fun name => by simp⟩
      split
      · next same => rw [same, List.map_nil, List.append_nil]; rfl
      · rfl
  | cons sig signatures ih =>
      obtain ⟨functions, variantsOf, contains⟩ := ih (addConstructor sumName reg tables sig)
      refine ⟨functions, fun other => (variantsOf other).trans ?_,
        fun name => (contains name).trans ?_⟩
      · simp only [variantsOf_addConstructor, if_true]
        split
        · rw [List.map_cons, List.append_assoc, List.singleton_append]
        · rfl
      · rw [contains_addConstructor, List.map_cons, List.contains_cons]
        cases name == sig.name <;> simp

section Sum

variable {info : TypeInfo} {names : List String}

theorem registerSum_other (constructors : ConstructorTable) (functions : FunctionTable)
    (other : info.variantNames? = none) (reg : Registration) :
    (constructors.registerSum functions info reg).2 = (constructors, functions) := by
  unfold registerSum
  rw [Option.map_eq_none_iff.mp other]

/-- A sum is registered by dropping what an earlier declaration left and adding its own. -/
theorem registerSum_eq {variants : List (String × List Ty)}
    (isSum : info.ty.variants? = some variants) (constructors : ConstructorTable)
    (functions : FunctionTable) (reg : Registration) :
    (constructors.registerSum functions info reg).2 =
      (variants.map (signatureOf info)).foldl (addConstructor info.name reg)
        (constructors.forgetSum functions info.name) := by
  unfold registerSum
  rw [isSum]

theorem names_signatures (info : TypeInfo) (variants : List (String × List Ty)) :
    (variants.map (signatureOf info)).map Signature.name = variants.map Prod.fst := by
  rw [List.map_map]
  rfl

theorem variantsOf_registerSum (isSum : info.variantNames? = some names)
    (constructors : ConstructorTable) (functions : FunctionTable) (reg : Registration)
    (other : String) : (constructors.registerSum functions info reg).2.1.variantsOf other =
      if other = info.name then names else constructors.variantsOf other := by
  obtain ⟨variants, ofSum, rfl⟩ := Option.map_eq_some_iff.mp isSum
  obtain ⟨-, listed, -⟩ := foldl_addConstructor info.name reg (variants.map (signatureOf info))
    (constructors.forgetSum functions info.name)
  rw [registerSum_eq ofSum, listed, variantsOf_forgetSum, variantsOf_forgetSum, if_pos rfl,
    names_signatures, List.nil_append]
  split <;> rfl

/-- A name is that of a constructor after the declaration if the sum has a variant of that
name, or if it was one before and no earlier declaration of the sum listed it. -/
theorem contains_registerSum (isSum : info.variantNames? = some names)
    (constructors : ConstructorTable) (functions : FunctionTable) (reg : Registration)
    (name : String) : (constructors.registerSum functions info reg).2.1.contains name =
      (names.contains name ||
        (constructors.contains name && !(constructors.variantsOf info.name).contains name)) := by
  obtain ⟨variants, ofSum, rfl⟩ := Option.map_eq_some_iff.mp isSum
  obtain ⟨-, -, contains⟩ := foldl_addConstructor info.name reg (variants.map (signatureOf info))
    (constructors.forgetSum functions info.name)
  rw [registerSum_eq ofSum, contains, names_signatures, contains_forgetSum]

/-- The functions change with the constructors. -/
theorem contains_functions_registerSum (isSum : info.variantNames? = some names)
    (constructors : ConstructorTable) {functions : FunctionTable}
    (unaliased : functions.Unaliased) (reg : Registration) :
    (constructors.registerSum functions info reg).2.2.Unaliased ∧
      ∀ name, (constructors.registerSum functions info reg).2.2.contains name =
        (names.contains name ||
          (functions.contains name && !(constructors.variantsOf info.name).contains name)) := by
  obtain ⟨variants, ofSum, rfl⟩ := Option.map_eq_some_iff.mp isSum
  obtain ⟨added, -, -⟩ := foldl_addConstructor info.name reg (variants.map (signatureOf info))
    (constructors.forgetSum functions info.name)
  obtain ⟨unaliased, dropped⟩ := unaliased.foldl_delete (constructors.variantsOf info.name)
  obtain ⟨unaliased, registered⟩ :=
    unaliased.foldl_register (variants.map (signatureOf info)) reg
  rw [registerSum_eq ofSum, added, ← names_signatures info variants]
  refine ⟨unaliased, fun name => (registered name).trans ?_⟩
  rw [dropped]

open SymbolTable (Edit edited)

variable {variants : List (String × List Ty)}

/-- What registering a sum does to the table of functions. -/
def sumEdits (old : List String) (info : TypeInfo) (variants : List (String × List Ty))
    (reg : Registration) : List (Edit Signature) :=
  old.map .delete ++ variants.map fun variant => .register variant.1 (signatureOf info variant) reg

theorem table_registerSum (isSum : info.ty.variants? = some variants)
    (constructors : ConstructorTable) (functions : FunctionTable) (reg : Registration) :
    (constructors.registerSum functions info reg).2.2.table =
      (sumEdits (constructors.variantsOf info.name) info variants reg).foldl edited
        functions.table := by
  have deleted : ((constructors.variantsOf info.name).map Edit.delete).foldl edited
      functions.table = (constructors.forgetSum functions info.name).2.table := by
    rw [List.foldl_map]
    exact List.foldl_hom FunctionTable.table fun _ _ => rfl
  rw [registerSum_eq isSum, sumEdits, List.foldl_append, deleted, List.foldl_map, List.foldl_map]
  refine (List.foldl_hom (fun tables : ConstructorTable × FunctionTable => tables.2.table) ?_).symm
  exact fun _ _ => rfl

theorem reachable_registerSum (constructors : ConstructorTable) {functions : FunctionTable}
    (reachable : functions.table.Reachable) (info : TypeInfo) (reg : Registration) :
    (constructors.registerSum functions info reg).2.2.table.Reachable := by
  cases isSum : info.ty.variants? with
  | none => rwa [registerSum_other _ _ (Option.map_eq_none_iff.mpr isSum)]
  | some variants =>
      rw [table_registerSum isSum]
      exact List.foldlRecOn _ edited reachable fun _ reachable edit _ => reachable.after_edit edit

end Sum

/-! ### Sequences of declarations -/

/-- Types as they are declared, with what their registrations say. -/
abbrev Declarations := List (TypeInfo × Registration)

/-- The tables of constructors and of functions after types are declared in order. -/
def declareAll (decls : Declarations) : ConstructorTable × FunctionTable :=
  decls.foldl (fun tables decl => (tables.1.registerSum tables.2 decl.1 decl.2).2) (∅, ∅)

/-- The variants of the last sum that was declared under a name. -/
def lastVariants (decls : Declarations) (sumName : String) : List String :=
  (decls.reverse.findSome? fun decl =>
    if decl.1.name = sumName then decl.1.variantNames? else none).getD []

/-- A sum of this name that had the variant was declared again without it, and no sum was
declared with it since. -/
def DroppedBy (decls : Declarations) (variant sumName : String) : Prop :=
  ∃ before decl names after, decls = before ++ decl :: after ∧ decl.1.name = sumName ∧
    decl.1.variantNames? = some names ∧ variant ∈ lastVariants before sumName ∧
    variant ∉ names ∧
    ∀ later ∈ after, ∀ names, later.1.variantNames? = some names → variant ∉ names

variable (decls : Declarations) (decl : TypeInfo × Registration)

theorem declareAll_concat : declareAll (decls ++ [decl]) =
    ((declareAll decls).1.registerSum (declareAll decls).2 decl.1 decl.2).2 := by
  simp [declareAll]

theorem lastVariants_concat (sumName : String) : lastVariants (decls ++ [decl]) sumName =
    match decl.1.variantNames? with
    | some names => if sumName = decl.1.name then names else lastVariants decls sumName
    | none => lastVariants decls sumName := by
  unfold lastVariants
  rw [List.reverse_append, List.reverse_singleton, List.singleton_append, List.findSome?_cons]
  by_cases same : decl.1.name = sumName
  · cases decl.1.variantNames? <;> simp [same]
  · cases decl.1.variantNames? <;> simp [same, Ne.symm same]

/-- A variant is dropped by the last declaration or was dropped before it; in either case
the last declaration is not one with the variant. -/
theorem droppedBy_concat (variant sumName : String) :
    DroppedBy (decls ++ [decl]) variant sumName ↔
      (∀ names, decl.1.variantNames? = some names → variant ∉ names) ∧
        (DroppedBy decls variant sumName ∨ decl.1.name = sumName ∧
          decl.1.variantNames?.isSome ∧ variant ∈ lastVariants decls sumName) := by
  constructor
  · rintro ⟨before, again, names, after, split, named, isSum, had, without, since⟩
    rcases List.eq_nil_or_concat after with rfl | ⟨after, last, rfl⟩
    · obtain ⟨rfl, same⟩ := List.append_inj' split rfl
      obtain rfl : decl = again := (List.cons.inj same).1
      refine ⟨fun names' isSum' => ?_, .inr ⟨named, by simp [isSum], had⟩⟩
      rwa [← Option.some.inj (isSum.symm.trans isSum')]
    · have parts : decls ++ [decl] = (before ++ again :: after) ++ [last] := by simpa using split
      obtain ⟨rfl, same⟩ := List.append_inj' parts rfl
      obtain rfl : decl = last := (List.cons.inj same).1
      refine ⟨since decl (by simp), .inl ⟨before, again, names, after, rfl, named, isSum, had,
        without, fun later member => since later (by simp [member])⟩⟩
  · rintro ⟨without, dropped | ⟨named, isSum, had⟩⟩
    · obtain ⟨before, again, names, after, rfl, named, isSum, had, without', since⟩ := dropped
      refine ⟨before, again, names, after ++ [decl], by simp, named, isSum, had, without', ?_⟩
      intro later member
      rcases List.mem_append.mp member with member | member
      · exact since later member
      · rw [List.mem_singleton.mp member]
        exact without
    · obtain ⟨names, isSum⟩ := Option.isSome_iff_exists.mp isSum
      exact ⟨decls, decl, names, [], rfl, named, isSum, had, without names isSum, nofun⟩

/-- The sum that dropped a variant does not list it. -/
theorem not_mem_of_droppedBy {decls : Declarations} {variant sumName : String}
    (dropped : DroppedBy decls variant sumName) : variant ∉ lastVariants decls sumName := by
  induction decls using List.reverseRecOn with
  | nil =>
      obtain ⟨before, decl, names, after, split, -⟩ := dropped
      simp at split
  | append_singleton decls decl ih =>
      obtain ⟨without, dropped⟩ := (droppedBy_concat decls decl variant sumName).mp dropped
      rw [lastVariants_concat]
      cases isSum : decl.1.variantNames? with
      | none => exact ih (dropped.resolve_right (by simp [isSum]))
      | some names =>
          by_cases same : sumName = decl.1.name
          · simpa [same] using without names isSum
          · simpa [same] using ih (dropped.resolve_right fun again => same again.1.symm)

theorem variantsOf_declareAll (sumName : String) :
    (declareAll decls).1.variantsOf sumName = lastVariants decls sumName := by
  induction decls using List.reverseRecOn with
  | nil => rfl
  | append_singleton decls decl ih =>
      rw [declareAll_concat, lastVariants_concat]
      cases isSum : decl.1.variantNames? with
      | none => rw [registerSum_other _ _ isSum, ih]
      | some names => rw [variantsOf_registerSum isSum, ih]

/-- Functions and constructors are registered and dropped together. -/
theorem contains_functions_declareAll : (declareAll decls).2.Unaliased ∧
    ∀ name, (declareAll decls).2.contains name = (declareAll decls).1.contains name := by
  induction decls using List.reverseRecOn with
  | nil => exact ⟨.empty, fun _ => rfl⟩
  | append_singleton decls decl ih =>
      rw [declareAll_concat]
      cases isSum : decl.1.variantNames? with
      | none =>
          rw [registerSum_other _ _ isSum]
          exact ih
      | some names =>
          obtain ⟨unaliased, contains⟩ := contains_functions_registerSum isSum
            (declareAll decls).1 ih.1 decl.2
          refine ⟨unaliased, fun name => ?_⟩
          rw [contains, contains_registerSum isSum, ih.2]

/-- The constructors are the variants that were declared and that no sum has dropped since. -/
theorem contains_declareAll (variant : String) :
    (declareAll decls).1.contains variant = true ↔
      (∃ decl ∈ decls, ∃ names, decl.1.variantNames? = some names ∧ variant ∈ names) ∧
        ∀ sumName, ¬ DroppedBy decls variant sumName := by
  induction decls using List.reverseRecOn with
  | nil =>
      refine ⟨by rintro ⟨⟩, ?_⟩
      rintro ⟨⟨decl, member, -⟩, -⟩
      cases member
  | append_singleton decls decl ih =>
      have declared : (∃ other ∈ decls ++ [decl], ∃ names, other.1.variantNames? = some names ∧
            variant ∈ names) ↔
          (∃ other ∈ decls, ∃ names, other.1.variantNames? = some names ∧ variant ∈ names) ∨
            ∃ names, decl.1.variantNames? = some names ∧ variant ∈ names := by
        simp [or_and_right, exists_or]
      rw [declareAll_concat, declared]
      simp only [droppedBy_concat]
      cases isSum : decl.1.variantNames? with
      | none =>
          rw [registerSum_other _ _ isSum, ih]
          simp
      | some names =>
          rw [contains_registerSum isSum, variantsOf_declareAll]
          by_cases here : variant ∈ names
          · simp [here]
          · -- What the last declaration drops is what an earlier one of the sum listed.
            have kept : (∀ sumName, ¬ ((∀ other, some names = some other → variant ∉ other) ∧
                  (DroppedBy decls variant sumName ∨ decl.1.name = sumName ∧
                    (some names).isSome ∧ variant ∈ lastVariants decls sumName))) ↔
                (∀ sumName, ¬ DroppedBy decls variant sumName) ∧
                  variant ∉ lastVariants decls decl.1.name := by
              constructor
              · intro kept
                have without : ∀ other, some names = some other → variant ∉ other := by
                  rintro _ ⟨⟩
                  exact here
                exact ⟨fun sumName dropped => kept sumName ⟨without, .inl dropped⟩,
                  fun had => kept decl.1.name ⟨without, .inr ⟨rfl, rfl, had⟩⟩⟩
              · rintro ⟨kept, absent⟩ sumName ⟨-, dropped | ⟨rfl, -, had⟩⟩
                · exact kept sumName dropped
                · exact absent had
            have elsewhere : ¬ ∃ other, some names = some other ∧ variant ∈ other := by
              rintro ⟨_, ⟨⟩, listed⟩
              exact here listed
            rw [kept, or_iff_left elsewhere, ← and_assoc, ← ih]
            simp [here]

/-- Of all the sums that are declared, in any order, with any variants and any number of
times, each variant that a sum lists is a constructor and a function, unless another sum
that had a variant of the same name was declared again without it, and the name was not
declared since. -/
theorem variants_registered_unless_dropped {sumName variant : String}
    (listed : variant ∈ (declareAll decls).1.variantsOf sumName) :
    ((declareAll decls).1.contains variant = true ∧
        (declareAll decls).2.contains variant = true) ↔
      ∀ other, other ≠ sumName → ¬ DroppedBy decls variant other := by
  rw [(contains_functions_declareAll decls).2, and_self, contains_declareAll]
  rw [variantsOf_declareAll] at listed
  constructor
  · rintro ⟨-, kept⟩ other -
    exact kept other
  · intro kept
    refine ⟨?_, fun other dropped => ?_⟩
    · -- The sum lists what one of the declarations gave it.
      unfold lastVariants at listed
      cases found : decls.reverse.findSome? fun decl =>
          if decl.1.name = sumName then decl.1.variantNames? else none with
      | none =>
          rw [found] at listed
          cases listed
      | some names =>
          rw [found] at listed
          obtain ⟨decl, member, isSum⟩ := List.exists_of_findSome?_eq_some found
          refine ⟨decl, List.mem_reverse.mp member, names, ?_, listed⟩
          split at isSum
          · exact isSum
          · cases isSum
    · by_cases same : other = sumName
      · exact not_mem_of_droppedBy dropped (same ▸ listed)
      · exact kept other same dropped

/-- Sums without fields, declared in order. -/
def plainSums (sums : List (String × List String)) : Declarations :=
  sums.map fun sum =>
    ({ name := sum.1, ty := .sum sum.1 (sum.2.map fun variant => (variant, [])) }, {})

/-- A variant that is shared, dropped by the one sum and declared again by the other. -/
theorem variants_registered_once_restored :
    let decls := plainSums [("Shape", ["Round", "Flat"]), ("Tone", ["Flat", "Sharp"]),
      ("Shape", ["Round"]), ("Tone", ["Flat"])]
    "Flat" ∈ (declareAll decls).1.variantsOf "Tone" ∧
      ∀ other, other ≠ "Tone" → ¬ DroppedBy decls "Flat" other :=
  ⟨by decide +kernel,
    (variants_registered_unless_dropped _ (by decide +kernel)).mp (by decide +kernel)⟩

/-- A sum that is declared again takes with it the constructor of another sum. -/
theorem shared_variant_dropped :
    let decls := plainSums [("Shape", ["Round", "Flat"]), ("Tone", ["Flat", "Sharp"]),
      ("Shape", ["Round"])]
    "Flat" ∈ (declareAll decls).1.variantsOf "Tone" ∧
      (declareAll decls).1.contains "Flat" = false ∧
      (declareAll decls).2.contains "Flat" = false := by
  decide +kernel

end ConstructorTable

end ModuleTyping
