import Mathlib.Data.List.Forall2
import ModuleTyping.Proofs.Ty.Grammar

/-!
# The shapes of written types

For each production of the grammar, the shape that the reader finds in a text written
by it. The reader tries the productions in a fixed order on overlapping texts, so every
statement names what keeps the earlier ones away: an array of an operand that a
parenthesis opens must not be taken for a function type, and a reference must not end
with the brackets of an array.
-/

namespace ModuleTyping

open Text TypeText

namespace TypeText

/-! ## Lists -/

theorem foldr_prepend (text piece : List Char) (others : List (List Char)) :
    text.foldr prepend (piece :: others) = (text ++ piece) :: others := by
  induction text with
  | nil => rfl
  | cons c rest ih =>
      rw [List.foldr_cons, ih]
      rfl

/-- The pieces of a list are its items, each with the spaces that stand before it. -/
theorem splitCommas_listed {items : List (List Char)} {list gap : List Char}
    (h : Listed .compact items list) (nonempty : items ≠ [])
    (each : ∀ item ∈ items, Derives .compact item) (spaces : ∀ c ∈ gap, c = ' ') :
    ∃ pieces, splitCommas 0 ' ' (gap ++ list) = some pieces ∧ pieces.map trim = items := by
  induction h generalizing gap with
  | none => exact absurd rfl nonempty
  | one item =>
      have derived := each item List.mem_cons_self
      have scanned := ((balanced_of_spaces spaces).append derived.balanced).commas 0 ' ' []
        (Nat.le_refl 0) (by decide)
      rw [List.append_nil] at scanned
      refine ⟨[gap ++ item], ?_, ?_⟩
      · rw [scanned, splitCommas, if_pos rfl, Option.map_some, foldr_prepend, List.append_nil]
      · simpa using derived.tight.trim_between (blank_of_spaces spaces) Blank.nil
  | @more next rest _ after items item hb ha _ ih =>
      obtain rfl := hb
      have derived := each item List.mem_cons_self
      obtain ⟨pieces, scanned, trimmed⟩ := ih (List.cons_ne_nil next items)
        (fun other mem => each other (List.mem_cons_of_mem item mem)) ha
      refine ⟨(gap ++ item) :: pieces, ?_, ?_⟩
      · rw [List.nil_append, ← List.append_assoc,
          ((balanced_of_spaces spaces).append derived.balanced).commas 0 ' ' _ (Nat.le_refl 0)
            (by decide),
          splitCommas_divide, scanned, Option.map_some, Option.map_some, foldr_prepend,
          List.append_nil]
      · have first := derived.tight.trim_between (blank_of_spaces spaces) Blank.nil
        rw [List.append_nil] at first
        rw [List.map_cons, first, trimmed]

/-- The items of a written list are read off as they were written. -/
theorem items?_listed {items : List (List Char)} {list : List Char}
    (h : Listed .compact items list) (each : ∀ item ∈ items, Derives .compact item) :
    items? list = some items := by
  by_cases nonempty : items = []
  · subst nonempty
    cases h
    rfl
  · obtain ⟨pieces, scanned, trimmed⟩ := splitCommas_listed h nonempty each
      (fun c (hc : c ∈ []) => nomatch hc)
    rw [List.nil_append] at scanned
    rw [items?, splitCommas_previous (by decide), scanned]
    dsimp only
    rw [trimmed]
    split
    · exact absurd rfl (each [] List.mem_cons_self).tight.ne_nil
    · rfl

/-! ## Parentheses -/

theorem ofText_eq {text : List Char} (tight : Tight text) : ofText text = ofTrimmed text := by
  rw [ofText, tight.trim_eq]

theorem ofTrimmed_function {least : Nat} {inside gap result : List Char}
    {params : List (List Char)} (balanced : Balanced least inside)
    (items : items? inside = some params) (blank : Blank gap) :
    ofTrimmed ('(' :: (inside ++ ')' :: (gap ++ '-' :: '>' :: result))) =
      .function params result := by
  have arrow : trimStart (gap ++ '-' :: '>' :: result) = '-' :: '>' :: result := by
    rw [trimStart_append blank, trimStart_cons (by decide)]
  simp only [ofTrimmed, balanced.closeParen_eq, arrow, items]

theorem ofTrimmed_enclosed {least : Nat} {inside : List Char}
    (balanced : Balanced least inside) :
    ofTrimmed ('(' :: (inside ++ [')'])) = .enclosed inside := by
  simp only [ofTrimmed, balanced.closeParen_eq, trimStart, List.dropWhile_nil, if_true]

theorem ofTrimmed_of_head {text : List Char} (nonempty : text ≠ [])
    (head : text.head? ≠ some '(') : ofTrimmed text = ofSuffixed text := by
  unfold ofTrimmed
  split
  · exact absurd rfl nonempty
  · exact absurd rfl head
  · rfl

/-! ## Brackets -/

theorem dropBrackets?_eq_some_iff {text element : List Char} :
    dropBrackets? text = some element ↔ text = element ++ ['[', ']'] := by
  constructor
  · intro h
    unfold dropBrackets? at h
    split at h
    · rename_i rest reversed
      obtain rfl := Option.some.inj h
      rw [← List.reverse_reverse text, reversed]
      simp
    · cases h
  · rintro rfl
    simp [dropBrackets?]

theorem dropAngle?_eq_some_iff {text inner : List Char} :
    dropAngle? text = some inner ↔ text = inner ++ ['>'] := by
  constructor
  · intro h
    unfold dropAngle? at h
    split at h
    · rename_i rest reversed
      obtain rfl := Option.some.inj h
      rw [← List.reverse_reverse text, reversed]
      simp
    · cases h
  · rintro rfl
    simp [dropAngle?]

theorem ofSuffixed_brackets (element : List Char) :
    ofSuffixed (element ++ ['[', ']']) = .array element := by
  rw [ofSuffixed, dropBrackets?_eq_some_iff.mpr rfl]

theorem ofSuffixed_of_not_brackets {text : List Char} (h : ¬ ['[', ']'] <:+ text) :
    ofSuffixed text = ofBare text := by
  unfold ofSuffixed
  split
  · rename_i element found
    exact absurd ⟨element, (dropBrackets?_eq_some_iff.mp found).symm⟩ h
  · rfl

/-- A text that brackets can be put behind: what a parenthesis opens at its start is
closed again before its brackets. -/
def Operand (text : List Char) : Prop :=
  text.head? ≠ some '(' ∨
    ∃ inside count, Balanced 1 inside ∧ text = '(' :: (inside ++ ')' :: brackets count)

theorem brackets_succ (count : Nat) : brackets (count + 1) = brackets count ++ ['[', ']'] := by
  simp [brackets, List.replicate_succ']

theorem Operand.append {text : List Char} (operand : Operand text) (nonempty : text ≠ []) :
    Operand (text ++ ['[', ']']) := by
  rcases operand with head | ⟨inside, count, balanced, rfl⟩
  · obtain ⟨c, rest, rfl⟩ := List.exists_cons_of_ne_nil nonempty
    exact .inl head
  · exact .inr ⟨inside, count + 1, balanced, by simp [brackets_succ]⟩

theorem operand_of_isTypeName {name : List Char} (wellFormed : isTypeName name = true)
    (rest : List Char) : Operand (name ++ rest) := by
  obtain ⟨c, word, rfl⟩ := List.exists_cons_of_ne_nil (tight_of_isTypeName wellFormed).ne_nil
  have head := head_of_isTypeName wellFormed (by decide : isNameChar '(' = false)
  exact .inl (by simpa using head)

theorem ofTrimmed_array {element : List Char} (nonempty : element ≠ [])
    (operand : Operand element) : ofTrimmed (element ++ ['[', ']']) = .array element := by
  rw [← ofSuffixed_brackets]
  rcases operand with head | ⟨inside, count, balanced, rfl⟩
  · obtain ⟨c, rest, rfl⟩ := List.exists_cons_of_ne_nil nonempty
    exact ofTrimmed_of_head (List.cons_ne_nil c _) head
  · have behind : brackets count ++ ['[', ']'] = '[' :: ']' :: brackets count := by
      rw [← brackets_succ]
      simp [brackets, List.replicate_succ]
    have closed := balanced.closeParen_eq (brackets count ++ ['[', ']'])
    simp only [List.cons_append, List.append_assoc, ofTrimmed, closed]
    rw [behind, trimStart_cons (by decide)]
    rfl

/-! ## References, applications and names -/

theorem ofBare_ref {referent : List Char}
    (mutable : ∀ rest, referent ≠ 'm' :: 'u' :: 't' :: ' ' :: rest) :
    ofBare ('&' :: referent) = .ref referent := by
  unfold ofBare
  split
  · rename_i rest shape
    exact absurd (List.cons.inj shape).2 (mutable rest)
  · rename_i shape
    rw [(List.cons.inj shape).2]
  · rename_i shape
    exact absurd rfl (shape referent)

theorem ofBare_mutRef (referent : List Char) :
    ofBare ('&' :: 'm' :: 'u' :: 't' :: ' ' :: referent) = .mutRef referent := rfl

theorem ofBare_of_head {text : List Char} (head : text.head? ≠ some '&') : ofBare text =
    match text.dropWhile (· ≠ '<') with
    | [] => .name text
    | _ :: inner =>
      match dropAngle? inner with
      | none => .malformed
      | some inner =>
        if isTypeName (trim (text.takeWhile (· ≠ '<'))) then
          match items? inner with
          | none => .malformed
          | some [] => .malformed
          | some args => .application (trim (text.takeWhile (· ≠ '<'))) args
        else .malformed := by
  unfold ofBare
  split
  · exact absurd rfl head
  · exact absurd rfl head
  · rfl

theorem not_brackets_of_isTypeName {text : List Char} (name : isTypeName text = true) :
    ¬ ['[', ']'] <:+ text := by
  intro suffix
  exact not_mem_of_isTypeName name (by decide : isNameChar ']' = false)
    (suffix.subset (by simp))

theorem ne_angle_of_isTypeName {text : List Char} (name : isTypeName text = true) :
    ∀ c ∈ text, decide (c ≠ '<') = true := by
  intro c hc
  simpa using ne_of_mem_of_not_mem hc (not_mem_of_isTypeName name (by decide))

theorem ofBare_name {text : List Char} (name : isTypeName text = true) :
    ofBare text = .name text := by
  have before := ne_angle_of_isTypeName name
  have passed : text.dropWhile (· ≠ '<') = [] := by
    rw [← List.append_nil text, List.dropWhile_append_of_pos before, List.dropWhile_nil]
  rw [ofBare_of_head (head_of_isTypeName name (by decide)), passed]

theorem ofBare_application {base list : List Char} {args : List (List Char)}
    (name : isTypeName base = true) (items : items? list = some args) (nonempty : args ≠ []) :
    ofBare (base ++ '<' :: (list ++ ['>'])) = .application base args := by
  have before := ne_angle_of_isTypeName name
  have head : (base ++ '<' :: (list ++ ['>'])).head? ≠ some '&' := by
    obtain ⟨c, rest, rfl⟩ := List.exists_cons_of_ne_nil (tight_of_isTypeName name).ne_nil
    simpa using head_of_isTypeName name (by decide : isNameChar '&' = false)
  have passed : (base ++ '<' :: (list ++ ['>'])).dropWhile (· ≠ '<') =
      '<' :: (list ++ ['>']) := by
    rw [List.dropWhile_append_of_pos before]
    simp
  have taken : (base ++ '<' :: (list ++ ['>'])).takeWhile (· ≠ '<') = base := by
    rw [List.takeWhile_append_of_pos before]
    simp
  rw [ofBare_of_head head, passed, taken, (tight_of_isTypeName name).trim_eq]
  simp only [dropAngle?_eq_some_iff.mpr rfl, name, if_true, items]

/-- A text is read by way of its pieces, so what holds of a text wherever it holds of the
pieces holds of every text. -/
@[elab_as_elim]
theorem induction_on_pieces {motive : List Char → Prop} (text : List Char)
    (whole : ∀ text, (∀ piece ∈ (ofText text).pieces, motive piece) → motive text) :
    motive text := by
  induction size : text.length using Nat.strongRecOn generalizing text with
  | ind size ih =>
      subst size
      exact whole text fun piece member => ih piece.length (length_lt piece member) piece rfl

end TypeText

/-! ## Reading compact texts -/

/-- A sequence of two steps ends well when both do. -/
theorem bind_eq_ok_iff {ε α β : Type} {x : Except ε α} {f : α → Except ε β} {b : β} :
    x >>= f = .ok b ↔ ∃ a, x = .ok a ∧ f a = .ok b := by
  constructor
  · intro h
    cases x with
    | error e => cases h
    | ok a => exact ⟨a, rfl, h⟩
  · rintro ⟨a, rfl, h⟩
    exact h

/-- A list is read item by item, and the first item that cannot be read is a fault. -/
theorem mapM_eq_ok_iff {ε α β : Type} {f : α → Except ε β} {xs : List α} {ys : List β} :
    xs.mapM f = .ok ys ↔ List.Forall₂ (fun x y => f x = .ok y) xs ys := by
  induction xs generalizing ys with
  | nil =>
      rw [List.mapM_nil, List.forall₂_nil_left_iff]
      exact ⟨fun h => (Except.ok.inj h).symm, fun h => congrArg _ h.symm⟩
  | cons x xs ih =>
      rw [List.mapM_cons, List.forall₂_cons_left_iff]
      constructor
      · intro h
        obtain ⟨y, hx, h⟩ := bind_eq_ok_iff.mp h
        obtain ⟨zs, hxs, h⟩ := bind_eq_ok_iff.mp h
        exact ⟨y, zs, hx, ih.mp hxs, (Except.ok.inj h).symm⟩
      · rintro ⟨y, zs, hx, hxs, rfl⟩
        rw [hx, ih.mpr hxs]
        rfl

namespace Ty

variable {typeParams : List String}

/-- Blanks around a text do not count. -/
theorem read_between {before text after : List Char} {ty : Ty} (tight : Tight text)
    (hb : Blank before) (ha : Blank after) (h : read typeParams text = .ok ty) :
    read typeParams (before ++ text ++ after) = .ok ty := by
  have same : ofText (before ++ text ++ after) = ofText text := by
    rw [ofText, tight.trim_between hb ha, ofText, tight.trim_eq]
  rw [read_eq] at h ⊢
  rw [same]
  cases shape : ofText text with
  | name name =>
      rw [shape] at h
      dsimp only at h ⊢
      cases found : ofName? typeParams name with
      | none =>
          rw [found] at h
          cases h
      | some ty =>
          rw [found] at h
          exact h
  | malformed =>
      rw [shape] at h
      cases h
  | _ =>
      rw [shape] at h
      exact h

theorem read_function {params : List (List Char)} {list before after result : List Char}
    {tys : List Ty} {ty : Ty} (items : ∀ param ∈ params, Derives .compact param)
    (listed : Listed .compact params list) (returned : Derives .compact result)
    (hb : ∀ c ∈ before, c = ' ') (ha : ∀ c ∈ after, c = ' ')
    (readParams : List.Forall₂ (fun text ty => read typeParams text = .ok ty) params tys)
    (readResult : read typeParams result = .ok ty) :
    read typeParams ('(' :: (list ++ ')' :: (before ++ '-' :: '>' :: (after ++ result)))) =
      .ok (.function tys ty) := by
  have whole := Derives.compact_function items listed returned hb ha
  have spaced := read_between returned.tight (blank_of_spaces ha) Blank.nil readResult
  rw [List.append_nil] at spaced
  rw [read_eq, ofText_eq whole.tight,
    ofTrimmed_function (listed.balanced fun param mem => (items param mem).balanced)
      (items?_listed listed items) (blank_of_spaces hb)]
  dsimp only
  rw [mapM_eq_ok_iff.mpr readParams, spaced]
  rfl

theorem read_enclosed {inside : List Char} {ty : Ty} (inner : Derives .compact inside)
    (h : read typeParams inside = .ok ty) :
    read typeParams ('(' :: (inside ++ [')'])) = .ok ty := by
  rw [read_eq, ofText_eq inner.compact_enclosed.tight, ofTrimmed_enclosed inner.balanced]
  exact h

theorem read_array {element : List Char} {ty : Ty} (elements : Derives .compact element)
    (operand : Operand element) (h : read typeParams element = .ok ty) :
    read typeParams (element ++ ['[', ']']) = .ok (.array ty) := by
  rw [read_eq, ofText_eq elements.compact_array.tight,
    ofTrimmed_array elements.tight.ne_nil operand]
  dsimp only
  rw [h]
  rfl

theorem read_ref {referent : List Char} {ty : Ty} (referents : Derives .compact referent)
    (unambiguous : ¬ ['[', ']'] <:+ referent) (h : read typeParams referent = .ok ty) :
    read typeParams ('&' :: referent) = .ok (.ref ty) := by
  have bare : ¬ ['[', ']'] <:+ '&' :: referent := by
    rw [List.suffix_cons_iff]
    rintro (shape | suffix)
    · cases shape
    · exact unambiguous suffix
  rw [read_eq, ofText_eq referents.compact_ref.tight,
    ofTrimmed_of_head (List.cons_ne_nil '&' referent) (by simp),
    ofSuffixed_of_not_brackets bare, ofBare_ref referents.ne_mut]
  dsimp only
  rw [h]
  rfl

theorem read_mutRef {referent : List Char} {ty : Ty} (referents : Derives .compact referent)
    (unambiguous : ¬ ['[', ']'] <:+ referent) (h : read typeParams referent = .ok ty) :
    read typeParams ('&' :: 'm' :: 'u' :: 't' :: ' ' :: referent) = .ok (.mutRef ty) := by
  have bare : ¬ ['[', ']'] <:+ '&' :: 'm' :: 'u' :: 't' :: ' ' :: referent := by
    simp only [List.suffix_cons_iff]
    rintro (shape | shape | shape | shape | shape | suffix)
    · cases shape
    · cases shape
    · cases shape
    · cases shape
    · cases shape
    · exact unambiguous suffix
  rw [read_eq, ofText_eq referents.compact_mutRef.tight,
    ofTrimmed_of_head (List.cons_ne_nil '&' _) (by simp), ofSuffixed_of_not_brackets bare,
    ofBare_mutRef]
  dsimp only
  rw [h]
  rfl

theorem read_application {base list : List Char} {args : List (List Char)} {tys : List Ty}
    (name : isTypeName base = true) (applied : args ≠ [])
    (items : ∀ arg ∈ args, Derives .compact arg) (listed : Listed .compact args list)
    (readArgs : List.Forall₂ (fun text ty => read typeParams text = .ok ty) args tys) :
    read typeParams (base ++ '<' :: (list ++ ['>'])) =
      .ok (ofApplication (String.ofList base) tys) := by
  have whole := Derives.compact_application name applied items listed
  obtain ⟨c, word, rfl⟩ := List.exists_cons_of_ne_nil (tight_of_isTypeName name).ne_nil
  have head : ((c :: word) ++ '<' :: (list ++ ['>'])).head? ≠ some '(' := by
    simpa using head_of_isTypeName name (by decide : isNameChar '(' = false)
  have bare : ¬ ['[', ']'] <:+ (c :: word) ++ '<' :: (list ++ ['>']) := by
    intro suffix
    have last := suffix.getLast (by simp)
    simp at last
  rw [read_eq, ofText_eq whole.tight, ofTrimmed_of_head (by simp) head,
    ofSuffixed_of_not_brackets bare, ofBare_application name (items?_listed listed items) applied]
  dsimp only
  rw [mapM_eq_ok_iff.mpr readArgs]
  rfl

theorem read_name {name : List Char} {ty : Ty} (wellFormed : isTypeName name = true)
    (h : ofName? typeParams name = some ty) : read typeParams name = .ok ty := by
  have tight := tight_of_isTypeName wellFormed
  rw [read_eq, ofText_eq tight,
    ofTrimmed_of_head tight.ne_nil (head_of_isTypeName wellFormed (by decide)),
    ofSuffixed_of_not_brackets (not_brackets_of_isTypeName wellFormed),
    ofBare_name wellFormed]
  dsimp only
  rw [h]

end Ty

end ModuleTyping
