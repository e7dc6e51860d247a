import Mathlib.Data.List.Forall2
import Mathlib.Data.List.Induction
import Mathlib.Data.List.Nodup
import ModuleTyping.Dict

/-!
# Dictionaries and their values

What a dictionary lists is what its look-ups give (`mem_entries_iff`), and so dictionaries
with related look-ups list related values (`values_related`). What becomes of a dictionary
along a run is told by what it keeps (`Extends`) and by the names it adds (`AddsOnly`).
-/

namespace ModuleTyping

section Related

variable {α β γ δ : Type} {R : α → β → Prop} {Q : γ → δ → Prop} {a : Option α} {b : Option β}

theorem isSome_eq_of_rel (related : Option.Rel R a b) : a.isSome = b.isSome := by
  cases related <;> rfl

theorem rel_map {f : α → γ} {g : β → δ} (related : Option.Rel R a b)
    (each : ∀ x y, R x y → Q (f x) (g y)) : Option.Rel Q (a.map f) (b.map g) := by
  cases related with
  | none => exact .none
  | some values => exact .some (each _ _ values)

theorem rel_bind {f : α → Option γ} {g : β → Option δ} (related : Option.Rel R a b)
    (each : ∀ x y, R x y → Option.Rel Q (f x) (g y)) : Option.Rel Q (a.bind f) (b.bind g) := by
  cases related with
  | none => exact .none
  | some values => exact each _ _ values

theorem rel_imp {Q : α → β → Prop} (related : Option.Rel R a b)
    (weaker : ∀ x y, a = some x → b = some y → R x y → Q x y) : Option.Rel Q a b := by
  cases related with
  | none => exact .none
  | some values => exact .some (weaker _ _ rfl rfl values)

theorem rel_refl {R : α → α → Prop} (refl : ∀ x, R x x) (a : Option α) : Option.Rel R a a := by
  cases a with
  | none => exact .none
  | some x => exact .some (refl x)

theorem rel_symm {Q : β → α → Prop} (related : Option.Rel R a b)
    (symm : ∀ x y, R x y → Q y x) : Option.Rel Q b a := by
  cases related with
  | none => exact .none
  | some values => exact .some (symm _ _ values)

theorem rel_trans {Q : β → γ → Prop} {T : α → γ → Prop} {c : Option γ}
    (first : Option.Rel R a b) (second : Option.Rel Q b c)
    (trans : ∀ x y z, R x y → Q y z → T x z) : Option.Rel T a c := by
  cases first with
  | none =>
      cases second
      exact .none
  | some values =>
      cases second with
      | some values' => exact .some (trans _ _ _ values values')

theorem rel_or {a' : Option α} {b' : Option β} (first : Option.Rel R a b)
    (second : Option.Rel R a' b') : Option.Rel R (a.or a') (b.or b') := by
  cases first with
  | none => exact second
  | some values => exact .some values

theorem rel_of_map_eq {f : α → β} {a b : Option α} (same : a.map f = b.map f) :
    Option.Rel (fun a b => f a = f b) a b := by
  cases a <;> cases b
  · exact .none
  · cases same
  · cases same
  · exact .some (Option.some.inj same)

end Related

theorem lookup_isSome_iff {α : Type} {pairs : List (String × α)} {name : String} :
    (pairs.lookup name).isSome = true ↔ name ∈ pairs.map Prod.fst := by
  simp only [List.lookup_isSome_iff, beq_iff_eq, List.mem_map]
  exact exists_congr fun pair => and_congr_right fun _ => eq_comm

namespace Dict

variable {α β : Type}

theorem Entries.find?_map (f : α → β) (key : String) (l : Entries α) :
    find? key (l.map fun entry => (entry.1, f entry.2)) = (find? key l).map f := by
  induction l with
  | nil => rfl
  | cons entry l ih =>
      rw [List.map_cons, find?_cons, find?_cons, ih]
      split <;> rfl

/-- The dictionary with `f` applied to its values. -/
def mapValues (f : α → β) (d : Dict α) : Dict β where
  entries := d.entries.map fun entry => (entry.1, f entry.2)
  ascending := List.pairwise_map.mpr d.ascending

@[simp] theorem get?_mapValues (f : α → β) (d : Dict α) (key : String) :
    (d.mapValues f).get? key = (d.get? key).map f :=
  Entries.find?_map f key d.entries

@[simp] theorem size_mapValues (f : α → β) (d : Dict α) : (d.mapValues f).size = d.size :=
  List.length_map _

theorem insert_comm (d : Dict α) {key other : String} (different : key ≠ other) (value value' : α) :
    (d.insert key value).insert other value' = (d.insert other value').insert key value := by
  refine ext_get? fun name => ?_
  simp only [get?_insert]
  grind

theorem mapValues_insert (f : α → β) (d : Dict α) (key : String) (value : α) :
    (d.insert key value).mapValues f = (d.mapValues f).insert key (f value) := by
  refine ext_get? fun other => ?_
  rw [get?_mapValues, get?_insert, get?_insert, get?_mapValues]
  split <;> rfl

theorem mem_entries_iff {d : Dict α} {key : String} {value : α} :
    (key, value) ∈ d.entries ↔ d.get? key = some value := by
  obtain ⟨entries, ascending⟩ := d
  show (key, value) ∈ entries ↔ Entries.find? key entries = some value
  induction entries with
  | nil => simp
  | cons entry rest ih =>
      obtain ⟨first, other⟩ := entry
      obtain ⟨before, ascending⟩ := List.pairwise_cons.mp ascending
      rw [Entries.find?_cons, List.mem_cons, ih ascending]
      by_cases same : key = first
      · -- No later entry has the name of the first.
        have last : Entries.find? key rest = none :=
          Entries.find?_eq_none_of_lt fun entry member => same ▸ before entry member
        simp [same, same ▸ last, eq_comm]
      · simp [same]

theorem lookup_entries (d : Dict α) (key : String) : d.entries.lookup key = d.get? key := by
  obtain ⟨entries, ascending⟩ := d
  show entries.lookup key = Entries.find? key entries
  clear ascending
  induction entries with
  | nil => rfl
  | cons entry rest ih =>
      rw [List.lookup_cons, Entries.find?_cons, ih]
      by_cases same : key = entry.1
      · simp [same]
      · simp [same, beq_false_of_ne same]

theorem nodup_keys (d : Dict α) : d.keys.Nodup := by
  refine List.pairwise_map.mpr (d.ascending.imp fun {a b} before same => ?_)
  rw [same] at before
  exact String.lt_irrefl b.1 before

theorem keys_eq_of_contains {d e : Dict α} (same : ∀ key, d.contains key = e.contains key) :
    d.keys = e.keys := by
  have units : d.mapValues (fun _ => ()) = e.mapValues fun _ => () := by
    refine ext_get? fun key => ?_
    have both := same key
    rw [contains, contains] at both
    rw [get?_mapValues, get?_mapValues]
    generalize d.get? key = found at both ⊢
    generalize e.get? key = found' at both ⊢
    cases found <;> cases found' <;> first | rfl | cases both
  have keys_mapValues (d : Dict α) : (d.mapValues fun _ => ()).keys = d.keys := by
    simp [keys, mapValues]
  rw [← keys_mapValues d, units, keys_mapValues]

theorem mapValues_ofList (f : α → β) (pairs : List (String × α)) :
    (ofList pairs).mapValues f = ofList (pairs.map fun pair => (pair.1, f pair.2)) := by
  unfold ofList
  rw [List.foldl_map]
  exact (List.foldl_hom (mapValues f) fun d pair => (mapValues_insert f d pair.1 pair.2).symm).symm

/-- Of the values that a list gives a name, the last one is kept. -/
theorem get?_ofList (pairs : List (String × α)) (key : String) :
    (ofList pairs).get? key = pairs.reverse.lookup key := by
  induction pairs using List.reverseRecOn with
  | nil => rfl
  | append_singleton pairs pair ih =>
      have added : ofList (pairs ++ [pair]) = (ofList pairs).insert pair.1 pair.2 :=
        List.foldl_append
      rw [added, get?_insert, ih, List.reverse_concat, List.lookup_cons]
      by_cases same : key = pair.1
      · simp [same]
      · simp [same, beq_false_of_ne same]

/-- Dictionaries with related values under the same names list related values. -/
theorem values_related {R : α → α → Prop} {d e : Dict α}
    (related : ∀ key, Option.Rel R (d.get? key) (e.get? key)) :
    List.Forall₂ R d.values e.values := by
  have keys : d.keys = e.keys := keys_eq_of_contains fun key => isSome_eq_of_rel (related key)
  have entries : List.Forall₂ (fun a b => a.1 = b.1) d.entries e.entries := by
    rw [Dict.keys, Dict.keys, ← List.forall₂_eq_eq_eq] at keys
    rwa [List.forall₂_map_left_iff, List.forall₂_map_right_iff] at keys
  have listed : List.Forall₂ (fun a b : String × α => R a.2 b.2) d.entries e.entries := by
    refine List.forall₂_iff_zip.mpr ⟨entries.length_eq, fun {a b} zipped => ?_⟩
    have named : a.1 = b.1 := (List.forall₂_iff_zip.mp entries).2 zipped
    have both := related a.1
    rw [mem_entries_iff.mp (List.of_mem_zip zipped).1, named,
      mem_entries_iff.mp (List.of_mem_zip zipped).2] at both
    cases both with
    | some values => exact values
  rw [values, values, List.forall₂_map_left_iff, List.forall₂_map_right_iff]
  exact listed

/-- The larger dictionary holds all that the smaller one does, under the same names. -/
def Extends (larger smaller : Dict α) : Prop :=
  ∀ key value, smaller.get? key = some value → larger.get? key = some value

theorem Extends.refl (d : Dict α) : d.Extends d :=
  fun _ _ held => held

theorem Extends.trans {d e f : Dict α} (upper : d.Extends e) (lower : e.Extends f) :
    d.Extends f :=
  fun key value held => upper key value (lower key value held)

theorem extends_insert {d : Dict α} {key : String} (fresh : d.get? key = none) (value : α) :
    (d.insert key value).Extends d := by
  intro other stored held
  have apart : other ≠ key := by
    rintro rfl
    cases fresh.symm.trans held
  rw [get?_insert, if_neg apart, held]

theorem contains_iff {d : Dict α} {key : String} :
    d.contains key = true ↔ ∃ value, d.get? key = some value :=
  Option.isSome_iff_exists

theorem contains_insert {d : Dict α} {key other : String} {value : α} :
    (d.insert key value).contains other = true ↔ other = key ∨ d.contains other = true := by
  rw [contains, get?_insert]
  by_cases same : other = key
  · simp [same]
  · simp [same, contains]

theorem contains_ofList {pairs : List (String × α)} {key : String} :
    (ofList pairs).contains key = true ↔ key ∈ pairs.map Prod.fst := by
  rw [contains, get?_ofList, lookup_isSome_iff, List.map_reverse, List.mem_reverse]

/-- What a dictionary made from a list holds is in the list. -/
theorem mem_of_get?_ofList {pairs : List (String × α)} {key : String} {value : α}
    (held : (ofList pairs).get? key = some value) : (key, value) ∈ pairs := by
  rw [get?_ofList] at held
  obtain ⟨before, after, split, -⟩ := List.lookup_eq_some_iff.mp held
  have listed : (key, value) ∈ pairs.reverse := by
    rw [split]
    exact List.mem_append_right before List.mem_cons_self
  exact List.mem_reverse.mp listed

/-- Of pairs with distinct names, each is found again. -/
theorem get?_ofList_of_mem {pairs : List (String × α)} (distinct : (pairs.map Prod.fst).Nodup)
    {pair : String × α} (member : pair ∈ pairs) : (ofList pairs).get? pair.1 = some pair.2 := by
  obtain ⟨value, held⟩ := contains_iff.mp (contains_ofList.mpr (List.mem_map_of_mem member))
  have same := List.inj_on_of_nodup_map distinct (mem_of_get?_ofList held) member rfl
  rw [held, ← same]

theorem mem_keys_iff {d : Dict α} {key : String} : key ∈ d.keys ↔ d.contains key = true := by
  rw [contains_iff, keys, List.mem_map]
  constructor
  · rintro ⟨entry, member, rfl⟩
    exact ⟨entry.2, mem_entries_iff.mp member⟩
  · rintro ⟨value, found⟩
    exact ⟨(key, value), mem_entries_iff.mpr found, rfl⟩

/-- The second dictionary holds values under no new names but those admitted. -/
def AddsOnly (admitted : String → Prop) (before after : Dict α) : Prop :=
  ∀ key, after.contains key = true → before.contains key = true ∨ admitted key

theorem AddsOnly.refl (admitted : String → Prop) (d : Dict α) : AddsOnly admitted d d :=
  fun _ => .inl

theorem AddsOnly.insert {admitted : String → Prop} {before after : Dict α} {key : String}
    (adds : AddsOnly admitted before after) (allowed : admitted key) (value : α) :
    AddsOnly admitted before (after.insert key value) := by
  intro other held
  rcases contains_insert.mp held with rfl | held
  · exact .inr allowed
  · exact adds other held

end Dict

end ModuleTyping
