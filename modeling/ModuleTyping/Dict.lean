/-!
# Dictionaries

A dictionary maps names to values. Its entries are kept in ascending order of their
names, each name once, so listing a dictionary needs no sorting and two dictionaries
with the same look-ups are equal (`Dict.ext_get?`): the order in which entries came in
leaves no trace. The look-up laws of the list operations hold for every list; the
order is needed for the listing and for extensionality only.
-/

namespace ModuleTyping

/-- A finite map from names to values, listed in ascending order of the names. -/
structure Dict (α : Type) where
  entries : List (String × α)
  ascending : entries.Pairwise fun a b => a.1 < b.1

namespace Dict

variable {α β : Type}

/-- Entry lists that are not yet known to be in order. -/
abbrev Entries (α : Type) := List (String × α)

namespace Entries

/-- The value of the first entry for `key`. -/
def find? (key : String) : Entries α → Option α
  | [] => none
  | (k, v) :: rest => if key = k then some v else find? key rest

/-- Puts `value` in its place in the order, over an entry of the same name. -/
def insert (key : String) (value : α) : Entries α → Entries α
  | [] => [(key, value)]
  | (k, v) :: rest =>
    if key < k then (key, value) :: (k, v) :: rest
    else if key = k then (key, value) :: rest
    else (k, v) :: insert key value rest

/-- Drops every entry for `key`. -/
def erase (key : String) : Entries α → Entries α
  | [] => []
  | (k, v) :: rest => if key = k then erase key rest else (k, v) :: erase key rest

@[simp] theorem find?_nil (key : String) : find? key ([] : Entries α) = none := rfl

theorem find?_cons (key k : String) (v : α) (rest : Entries α) :
    find? key ((k, v) :: rest) = if key = k then some v else find? key rest := rfl

theorem find?_insert (key other : String) (value : α) (l : Entries α) :
    find? other (insert key value l) = if other = key then some value else find? other l := by
  induction l with
  | nil => rfl
  | cons entry rest ih =>
    obtain ⟨k, v⟩ := entry
    unfold insert
    split
    · rfl
    · split
      · rename_i hk
        subst hk
        simp only [find?_cons]
        split <;> rfl
      · rename_i hlt hne
        simp only [find?_cons, ih]
        by_cases ho : other = k
        · subst ho
          simp [Ne.symm hne]
        · simp [ho]

theorem find?_erase (key other : String) (l : Entries α) :
    find? other (erase key l) = if other = key then none else find? other l := by
  induction l with
  | nil => simp [erase]
  | cons entry rest ih =>
    obtain ⟨k, v⟩ := entry
    unfold erase
    split
    · rename_i hk
      subst hk
      rw [ih, find?_cons]
      split <;> rfl
    · rename_i hne
      simp only [find?_cons, ih]
      by_cases ho : other = k
      · subst ho
        simp [Ne.symm hne]
      · simp [ho]

theorem mem_insert {key : String} {value : α} {entry : String × α} {l : Entries α}
    (h : entry ∈ insert key value l) : entry = (key, value) ∨ entry ∈ l := by
  induction l with
  | nil => simpa [insert] using h
  | cons first rest ih =>
    obtain ⟨k, v⟩ := first
    unfold insert at h
    split at h
    · simpa using h
    · split at h
      · rcases List.mem_cons.mp h with h | h
        · exact .inl h
        · exact .inr (List.mem_cons_of_mem _ h)
      · rcases List.mem_cons.mp h with h | h
        · exact .inr (h ▸ List.mem_cons_self)
        · exact (ih h).imp id (List.mem_cons_of_mem _)

theorem pairwise_insert (key : String) (value : α) {l : Entries α}
    (h : l.Pairwise fun a b => a.1 < b.1) :
    (insert key value l).Pairwise fun a b => a.1 < b.1 := by
  induction l with
  | nil => simp [insert]
  | cons first rest ih =>
    obtain ⟨k, v⟩ := first
    obtain ⟨before, tail⟩ := List.pairwise_cons.mp h
    unfold insert
    split
    · rename_i hlt
      refine List.pairwise_cons.mpr ⟨fun entry hmem => ?_, h⟩
      rcases List.mem_cons.mp hmem with rfl | hmem
      · exact hlt
      · exact String.lt_trans hlt (before entry hmem)
    · split
      · rename_i hk
        subst hk
        exact List.pairwise_cons.mpr ⟨before, tail⟩
      · rename_i hlt hne
        refine List.pairwise_cons.mpr ⟨fun entry hmem => ?_, ih tail⟩
        rcases mem_insert hmem with rfl | hmem
        · exact (Std.lt_trichotomy k key).resolve_right
            (fun h => h.elim (fun e => hne e.symm) hlt)
        · exact before entry hmem

theorem erase_sublist (key : String) (l : Entries α) : (erase key l).Sublist l := by
  induction l with
  | nil => exact .slnil
  | cons first rest ih =>
    obtain ⟨k, v⟩ := first
    unfold erase
    split
    · exact ih.cons _
    · exact ih.cons_cons _

theorem find?_eq_none_of_lt {key : String} {l : Entries α} (h : ∀ entry ∈ l, key < entry.1) :
    find? key l = none := by
  induction l with
  | nil => rfl
  | cons first rest ih =>
    obtain ⟨k, v⟩ := first
    have hk : key ≠ k := fun e => String.lt_irrefl k (e ▸ h (k, v) List.mem_cons_self)
    rw [find?_cons, if_neg hk, ih fun entry hmem => h entry (List.mem_cons_of_mem _ hmem)]

/-- Of two ascending lists with the same look-ups, neither starts before the other. -/
theorem not_lt_of_find?_eq {k k' : String} {v v' : α} {r r' : Entries α}
    (order : ((k', v') :: r').Pairwise fun a b => a.1 < b.1)
    (same : find? k ((k, v) :: r) = find? k ((k', v') :: r')) : ¬ k < k' := by
  intro hlt
  have absent : find? k ((k', v') :: r') = none := by
    refine find?_eq_none_of_lt fun entry hmem => ?_
    rcases List.mem_cons.mp hmem with rfl | hmem
    · exact hlt
    · exact String.lt_trans hlt ((List.pairwise_cons.mp order).1 entry hmem)
  simp [absent, find?_cons] at same

/-- Ascending lists with the same look-ups are equal. -/
theorem eq_of_find?_eq {l m : Entries α} (hl : l.Pairwise fun a b => a.1 < b.1)
    (hm : m.Pairwise fun a b => a.1 < b.1) (same : ∀ key, find? key l = find? key m) :
    l = m := by
  induction l generalizing m with
  | nil =>
    cases m with
    | nil => rfl
    | cons first rest =>
      obtain ⟨k, v⟩ := first
      simpa [find?_cons] using same k
  | cons first rest ih =>
    cases m with
    | nil =>
      obtain ⟨k, v⟩ := first
      simpa [find?_cons] using same k
    | cons first' rest' =>
      obtain ⟨k, v⟩ := first
      obtain ⟨k', v'⟩ := first'
      have hk : k = k' :=
        (Std.lt_trichotomy k k').elim
          (fun h => absurd h (not_lt_of_find?_eq hm (same k)))
          (·.elim id fun h => absurd h (not_lt_of_find?_eq hl (same k').symm))
      subst hk
      have hv : v = v' := by simpa [find?_cons] using same k
      subst hv
      have tails : ∀ key, find? key rest = find? key rest' := by
        intro key
        by_cases hkey : key = k
        · subst hkey
          rw [find?_eq_none_of_lt (List.pairwise_cons.mp hl).1,
            find?_eq_none_of_lt (List.pairwise_cons.mp hm).1]
        · simpa [find?_cons, hkey] using same key
      rw [ih (List.pairwise_cons.mp hl).2 (List.pairwise_cons.mp hm).2 tails]

end Entries

/-- The dictionary without entries. -/
def empty : Dict α := ⟨[], .nil⟩

instance : EmptyCollection (Dict α) := ⟨empty⟩

instance : Inhabited (Dict α) := ⟨empty⟩

/-- The value stored under `key`. -/
def get? (d : Dict α) (key : String) : Option α :=
  Entries.find? key d.entries

/-- Some value is stored under `key`. -/
def contains (d : Dict α) (key : String) : Bool :=
  (d.get? key).isSome

/-- Stores `value` under `key`, in place of any value stored there before. -/
def insert (d : Dict α) (key : String) (value : α) : Dict α :=
  ⟨Entries.insert key value d.entries, Entries.pairwise_insert key value d.ascending⟩

/-- Forgets what is stored under `key`. -/
def erase (d : Dict α) (key : String) : Dict α :=
  ⟨Entries.erase key d.entries, d.ascending.sublist (Entries.erase_sublist key d.entries)⟩

/-- The names in use, in ascending order. -/
def keys (d : Dict α) : List String := d.entries.map Prod.fst

/-- The values, in ascending order of their names. -/
def values (d : Dict α) : List α := d.entries.map Prod.snd

/-- The number of entries. -/
def size (d : Dict α) : Nat := d.entries.length

/-- Stores each pair in turn, so the last of several pairs for one name stands. -/
def ofList (pairs : List (String × α)) : Dict α :=
  pairs.foldl (fun d (key, value) => d.insert key value) empty

/-- Applies `f` to the value stored under `key`, if there is one. -/
def modify (d : Dict α) (key : String) (f : α → α) : Dict α :=
  match d.get? key with
  | some value => d.insert key (f value)
  | none => d

@[simp] theorem get?_empty (key : String) : (empty : Dict α).get? key = none := rfl

theorem get?_insert (d : Dict α) (key other : String) (value : α) :
    (d.insert key value).get? other = if other = key then some value else d.get? other :=
  Entries.find?_insert key other value d.entries

theorem get?_erase (d : Dict α) (key other : String) :
    (d.erase key).get? other = if other = key then none else d.get? other :=
  Entries.find?_erase key other d.entries

@[simp] theorem get?_insert_self (d : Dict α) (key : String) (value : α) :
    (d.insert key value).get? key = some value := by
  simp [get?_insert]

@[simp] theorem get?_erase_self (d : Dict α) (key : String) : (d.erase key).get? key = none := by
  simp [get?_erase]

/-- A dictionary is determined by its look-ups. -/
theorem ext_get? {d e : Dict α} (same : ∀ key, d.get? key = e.get? key) : d = e := by
  obtain ⟨l, hl⟩ := d
  obtain ⟨m, hm⟩ := e
  have : l = m := Entries.eq_of_find?_eq hl hm same
  subst this
  rfl

end Dict

end ModuleTyping
