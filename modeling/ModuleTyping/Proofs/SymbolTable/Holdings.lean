import Mathlib.Data.List.Forall2
import ModuleTyping.Proofs.Outcomes
import ModuleTyping.Proofs.SymbolTable.Members

/-!
# What a table holds

A table that was filled from nothing, each name once and without aliases, holds exactly what
was registered (`SymbolTable.Holds`). The functions and sums that a module declares fill
their two tables that way: `Declares` lists the signatures and the sums that are known,
where what is registered for a signature may be anything that agrees with it.
-/

namespace ModuleTyping

/-- Two lists have the same images if their elements have, in order. -/
theorem map_eq_map_iff {α β γ : Type} {f : α → γ} {g : β → γ} {l : List α} {l' : List β} :
    l.map f = l'.map g ↔ List.Forall₂ (fun a b => f a = g b) l l' := by
  rw [← List.forall₂_eq_eq_eq, List.forall₂_map_left_iff, List.forall₂_map_right_iff]

namespace SymbolTable

variable {α : Type} {table : SymbolTable α} {entries : List (Entry α)}

/-- The table holds these entries and no others, and each is reached by its name alone. -/
structure Holds (entries : List (Entry α)) (table : SymbolTable α) : Prop where
  consistent : table.Consistent
  unaliased : ∀ name, table.aliases.get? name = none
  held : ∀ {entry}, table.entries.get? entry.name = some entry ↔ entry ∈ entries

namespace Holds

theorem empty : Holds [] (∅ : SymbolTable α) where
  consistent := .empty
  unaliased _ := rfl
  held := ⟨nofun, nofun⟩

theorem get? (holds : table.Holds entries) {entry : Entry α} (member : entry ∈ entries) :
    table.get? entry.name = some entry := by
  have held := holds.held.mpr member
  have registered : table.entries.contains entry.name = true :=
    Option.isSome_of_eq_some held
  rw [SymbolTable.get?, canonicalName?_of_registered registered, Option.bind_some, held]

theorem absent (holds : table.Holds entries) {name : String}
    (new : name ∉ entries.map Entry.name) : table.entries.get? name = none := by
  cases found : table.entries.get? name with
  | none => rfl
  | some entry =>
      obtain rfl := holds.consistent.named found
      exact absurd (List.mem_map_of_mem (holds.held.mp found)) new

/-- A name that is registered for the first time. -/
theorem register (holds : table.Holds entries) {name : String}
    (new : name ∉ entries.map Entry.name) (value : α) (reg : Registration) :
    (table.register name value reg).Holds (entries ++ [.make name value reg]) := by
  have absent := holds.absent new
  have stored : table.register name value reg = table.store (.make name value reg) := by
    unfold SymbolTable.register forgetAlias
    rw [holds.unaliased]
    dsimp only
    rw [absent]
  refine ⟨holds.consistent.edited (.register name value reg), fun other => ?_, fun {entry} => ?_⟩
  · rw [stored]
    exact holds.unaliased other
  · rw [stored, List.mem_append, List.mem_singleton, ← holds.held]
    show (table.entries.insert name (Entry.make name value reg)).get? entry.name = some entry ↔ _
    rw [Dict.get?_insert]
    split
    · next same =>
      rw [same, absent]
      constructor
      · exact fun made => .inr (Option.some.inj made).symm
      · rintro (held | rfl)
        · cases held
        · rfl
    · next other =>
      constructor
      · exact .inl
      · rintro (held | rfl)
        · exact held
        · exact absurd rfl other

end Holds

end SymbolTable

namespace ConstructorTable

/-- The constructors of a sum that is registered for the first time are registered as
functions, in order, and listed for the sum. -/
theorem registerSum_new {constructors : ConstructorTable} {info : TypeInfo}
    {variants : List (String × List Ty)} (isSum : info.ty.variants? = some variants)
    (new : constructors.variantsOf info.name = []) (functions : FunctionTable)
    (reg : Registration) :
    (constructors.registerSum functions info reg).2.2 =
        (variants.map (signatureOf info)).foldl (·.register · reg) functions ∧
      ∀ other, (constructors.registerSum functions info reg).2.1.variantsOf other =
        if other = info.name then variants.map Prod.fst else constructors.variantsOf other := by
  have forgotten : (constructors.forgetSum functions info.name).2 = functions := by
    rw [forgetSum, new]
    rfl
  obtain ⟨registered, -, -⟩ := foldl_addConstructor info.name reg
    (variants.map (signatureOf info)) (constructors.forgetSum functions info.name)
  refine ⟨?_, variantsOf_registerSum (Option.map_eq_some_iff.mpr ⟨_, isSum, rfl⟩) constructors
    functions reg⟩
  rw [registerSum_eq isSum, registered, forgotten]

end ConstructorTable

/-- The functions and constructors that are known: one entry for each of the signatures, which
agrees with it, and for each of the sums the names of its constructors. -/
structure Declares (agree : Signature → Entry Signature → Prop) (signatures : List Signature)
    (sums : List (String × List String)) (functions : FunctionTable)
    (constructors : ConstructorTable) : Prop where
  functions : ∃ entries, functions.table.Holds entries ∧
    List.Forall₂ (fun sig entry => entry.name = sig.name ∧ agree sig entry) signatures entries
  listed : ∀ sum ∈ sums, constructors.variantsOf sum.1 = sum.2
  unlisted : ∀ name ∉ sums.map Prod.fst, constructors.variantsOf name = []

namespace Declares

variable {agree : Signature → Entry Signature → Prop} {signatures : List Signature}
variable {sums : List (String × List String)} {functions : FunctionTable}
variable {constructors : ConstructorTable} {reg : Registration}

theorem empty : Declares agree [] [] ∅ ∅ where
  functions := ⟨[], .empty, .nil⟩
  listed := nofun
  unlisted _ _ := rfl

theorem entry? (declares : Declares agree signatures sums functions constructors)
    {sig : Signature} (member : sig ∈ signatures) :
    ∃ entry, functions.entry? sig.name = some entry ∧ agree sig entry := by
  obtain ⟨entries, holds, each⟩ := declares.functions
  obtain ⟨entry, held, named, agrees⟩ := exists_related each member
  exact ⟨entry, named ▸ holds.get? held, agrees⟩

/-- What is registered for a signature with a new name. -/
theorem register (declares : Declares agree signatures sums functions constructors)
    {sig known : Signature} (new : sig.name ∉ signatures.map Signature.name)
    (named : known.name = sig.name) (agrees : agree sig (.make known.name known reg)) :
    Declares agree (signatures ++ [sig]) sums (functions.register known reg) constructors where
  functions := by
    obtain ⟨entries, holds, each⟩ := declares.functions
    have names : signatures.map Signature.name = entries.map Entry.name :=
      map_eq_map_iff.mpr (each.imp fun _ _ both => both.1.symm)
    refine ⟨_, holds.register (by rwa [← names, named]) known reg, ?_⟩
    exact List.rel_append each (.cons ⟨named, agrees⟩ .nil)
  listed := declares.listed
  unlisted := declares.unlisted

theorem new_of_distinct {added : List Signature} {sig : Signature}
    (distinct : ((signatures ++ sig :: added).map Signature.name).Nodup) :
    sig.name ∉ signatures.map Signature.name := by
  rw [List.map_append, List.map_cons] at distinct
  exact fun listed => (List.nodup_append.mp distinct).2.2 _ listed _ List.mem_cons_self rfl

/-- What is registered for signatures with new names, in order. -/
theorem registerAll (declares : Declares agree signatures sums functions constructors)
    {added known : List Signature}
    (distinct : ((signatures ++ added).map Signature.name).Nodup)
    (each : List.Forall₂ (fun sig known => known.name = sig.name ∧
      agree sig (.make known.name known reg)) added known) :
    Declares agree (signatures ++ added) sums (known.foldl (·.register · reg) functions)
      constructors := by
  induction each generalizing signatures functions with
  | nil => simpa using declares
  | @cons sig known added knowns first rest ih =>
      have new := new_of_distinct distinct
      rw [List.append_cons] at distinct ⊢
      exact ih (declares.register new first.1 first.2) distinct

/-- A sum that is registered for the first time and whose constructors have new names. -/
theorem registerSum (declares : Declares agree signatures sums functions constructors)
    {info : TypeInfo} {variants : List (String × List Ty)}
    (isSum : info.ty.variants? = some variants) (new : info.name ∉ sums.map Prod.fst)
    {added : List Signature} (distinct : ((signatures ++ added).map Signature.name).Nodup)
    (each : List.Forall₂ (fun sig known => known.name = sig.name ∧
      agree sig (.make known.name known reg)) added
        (variants.map (ConstructorTable.signatureOf info))) :
    Declares agree (signatures ++ added) (sums ++ [(info.name, variants.map Prod.fst)])
      (constructors.registerSum functions info reg).2.2
      (constructors.registerSum functions info reg).2.1 := by
  obtain ⟨registered, variantsOf⟩ := ConstructorTable.registerSum_new isSum
    (declares.unlisted info.name new) functions reg
  have all := declares.registerAll distinct each
  refine ⟨registered ▸ all.functions, fun sum member => ?_, fun name other => ?_⟩
  · rw [variantsOf]
    rcases List.mem_append.mp member with old | added
    · have apart : sum.1 ≠ info.name := fun same => new (same ▸ List.mem_map_of_mem old)
      rw [if_neg apart, declares.listed sum old]
    · rw [List.mem_singleton.mp added, if_pos rfl]
  · rw [List.map_append, List.mem_append, not_or] at other
    have apart : name ≠ info.name := fun same => other.2 (same ▸ List.mem_cons_self)
    rw [variantsOf, if_neg apart, declares.unlisted name other.1]

end Declares

end ModuleTyping
