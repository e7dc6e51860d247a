import ModuleTyping.Ty.Reader

/-!
# Scanning texts of types

The reader of types cuts a text at blanks, at closing parentheses and at commas. This
module says what the cuts are for texts that are put together from known parts.

`Text.Tight` is a text that trimming leaves alone, also from between blanks. `Balanced`
is a text that a scan passes over as a whole: behind it the scan stands at the depth it
had before. Balanced texts are closed under juxtaposition and under brackets, which is
all that is needed to follow a scan through the text of a type. The least depth in
`Balanced` separates one type from a list of types, whose commas must stand in brackets.
-/

namespace ModuleTyping

namespace Text

/-- Nothing but blanks. -/
def Blank (text : List Char) : Prop :=
  ∀ c ∈ text, isBlank c = true

/-- A text with characters at its ends that are not blank. -/
structure Tight (text : List Char) : Prop where
  head : ∃ c, text.head? = some c ∧ isBlank c = false
  last : ∃ c, text.getLast? = some c ∧ isBlank c = false

theorem Blank.nil : Blank [] := by
  intro c hc
  cases hc

theorem blank_of_spaces {gap : List Char} (spaces : ∀ c ∈ gap, c = ' ') : Blank gap := by
  intro c hc
  rw [spaces c hc]
  decide

theorem Blank.append {a b : List Char} (ha : Blank a) (hb : Blank b) : Blank (a ++ b) := by
  intro c hc
  rcases List.mem_append.mp hc with hc | hc
  · exact ha c hc
  · exact hb c hc

theorem Tight.ne_nil {text : List Char} (tight : Tight text) : text ≠ [] := by
  rintro rfl
  obtain ⟨c, hc, _⟩ := tight.head
  cases hc

theorem trimStart_append {gap text : List Char} (blank : Blank gap) :
    trimStart (gap ++ text) = trimStart text :=
  List.dropWhile_append_of_pos blank

theorem trimStart_cons {c : Char} {rest : List Char} (hc : isBlank c = false) :
    trimStart (c :: rest) = c :: rest := by
  simp [trimStart, hc]

theorem trimEnd_append {text gap : List Char} (blank : Blank gap) :
    trimEnd (text ++ gap) = trimEnd text := by
  have reversed : ∀ c ∈ gap.reverse, isBlank c = true :=
    fun c hc => blank c (List.mem_reverse.mp hc)
  simp only [trimEnd, List.reverse_append, List.dropWhile_append_of_pos reversed]

theorem trimEnd_concat {init : List Char} {c : Char} (hc : isBlank c = false) :
    trimEnd (init ++ [c]) = init ++ [c] := by
  simp [trimEnd, hc]

/-- Trimming gives a tight text back from between blanks. -/
theorem Tight.trim_between {before text after : List Char} (tight : Tight text)
    (hb : Blank before) (ha : Blank after) : trim (before ++ text ++ after) = text := by
  obtain ⟨c, hhead, hc⟩ := tight.head
  obtain ⟨rest, hhead⟩ := List.head?_eq_some_iff.mp hhead
  obtain ⟨d, hlast, hd⟩ := tight.last
  obtain ⟨init, hlast⟩ := List.getLast?_eq_some_iff.mp hlast
  rw [trim, List.append_assoc, trimStart_append hb]
  have kept : trimStart (text ++ after) = text ++ after := by
    rw [hhead, List.cons_append, trimStart_cons hc]
  rw [kept, trimEnd_append ha, hlast, trimEnd_concat hd]

theorem Tight.trim_eq {text : List Char} (tight : Tight text) : trim text = text := by
  simpa using tight.trim_between Blank.nil Blank.nil

/-- Trimming takes blanks away and nothing else. -/
theorem trim_spec (text : List Char) :
    ∃ before after, Blank before ∧ Blank after ∧ text = before ++ trim text ++ after := by
  refine ⟨text.takeWhile isBlank, ((trimStart text).reverse.takeWhile isBlank).reverse,
    ?_, ?_, ?_⟩
  · intro c hc
    exact List.all_eq_true.mp List.all_takeWhile c hc
  · intro c hc
    exact List.all_eq_true.mp List.all_takeWhile c (List.mem_reverse.mp hc)
  · have front : text.takeWhile isBlank ++ trimStart text = text :=
      List.takeWhile_append_dropWhile
    have back : trim text ++ ((trimStart text).reverse.takeWhile isBlank).reverse =
        trimStart text := by
      rw [trim, trimEnd, ← List.reverse_append, List.takeWhile_append_dropWhile,
        List.reverse_reverse]
    rw [List.append_assoc, back, front]

end Text

namespace TypeText

/-- The character neither opens nor closes brackets, divides a list or belongs to an arrow. -/
def isPlain (c : Char) : Bool :=
  !(['<', '(', '[', '>', ')', ']', ',', '-'].contains c)

/-- A scan passes over the text and stands where it stood before. Commas are passed over
at depth `least` and deeper; a scan that stands behind a hyphen is not considered. -/
structure Balanced (least : Nat) (text : List Char) : Prop where
  parens : ∀ depth rest, closeParen depth (text ++ rest) =
    (closeParen depth rest).map fun (inside, after) => (text ++ inside, after)
  commas : ∀ depth previous rest, least ≤ depth → previous ≠ '-' →
    splitCommas depth previous (text ++ rest) =
      (splitCommas depth ' ' rest).map (text.foldr prepend)

theorem closeParen_open (depth : Nat) (rest : List Char) : closeParen depth ('(' :: rest) =
    (closeParen (depth + 1) rest).map fun (inside, after) => ('(' :: inside, after) := by
  rw [closeParen.eq_def]
  rfl

theorem closeParen_close (depth : Nat) (rest : List Char) :
    closeParen (depth + 1) (')' :: rest) =
      (closeParen depth rest).map fun (inside, after) => (')' :: inside, after) := by
  rw [closeParen.eq_def]
  rfl

theorem closeParen_other {c : Char} (depth : Nat) (rest : List Char) (ho : c ≠ '(')
    (hc : c ≠ ')') : closeParen depth (c :: rest) =
      (closeParen depth rest).map fun (inside, after) => (c :: inside, after) := by
  rw [closeParen.eq_def]
  simp [ho, hc]

/-- Only a hyphen before a text makes a difference to its scan. -/
theorem splitCommas_previous {depth : Nat} {previous : Char} {text : List Char}
    (h : previous ≠ '-') : splitCommas depth previous text = splitCommas depth ' ' text := by
  cases text with
  | nil => rfl
  | cons c rest =>
      unfold splitCommas
      simp [h]

theorem splitCommas_open {c : Char} (depth : Nat) (previous : Char) (rest : List Char)
    (hc : c = '<' ∨ c = '(' ∨ c = '[') : splitCommas depth previous (c :: rest) =
      (splitCommas (depth + 1) ' ' rest).map (prepend c) := by
  have hyphen : c ≠ '-' := by
    rcases hc with rfl | rfl | rfl <;> decide
  rw [splitCommas.eq_def, ← splitCommas_previous hyphen]
  simp [hc]

theorem splitCommas_close {c previous : Char} (depth : Nat) (rest : List Char)
    (hc : c = '>' ∨ c = ')' ∨ c = ']') (hp : previous ≠ '-') :
    splitCommas (depth + 1) previous (c :: rest) =
      (splitCommas depth ' ' rest).map (prepend c) := by
  have hyphen : c ≠ '-' := by
    rcases hc with rfl | rfl | rfl <;> decide
  have opens : ¬ (c = '<' ∨ c = '(' ∨ c = '[') := by
    rcases hc with rfl | rfl | rfl <;> decide
  rw [splitCommas.eq_def, ← splitCommas_previous hyphen]
  simp [hc, hp, opens]

/-- Inside brackets a comma is a character like any other. -/
theorem splitCommas_comma (depth : Nat) (previous : Char) (rest : List Char) :
    splitCommas (depth + 1) previous (',' :: rest) =
      (splitCommas (depth + 1) ' ' rest).map (prepend ',') := by
  rw [splitCommas.eq_def, ← splitCommas_previous (by decide : ',' ≠ '-')]
  simp

/-- Outside brackets a comma ends a piece. -/
theorem splitCommas_divide (previous : Char) (rest : List Char) :
    splitCommas 0 previous (',' :: rest) = (splitCommas 0 ' ' rest).map ([] :: ·) := by
  rw [splitCommas.eq_def, ← splitCommas_previous (by decide : ',' ≠ '-')]
  simp

theorem splitCommas_arrow (depth : Nat) (previous : Char) (rest : List Char) :
    splitCommas depth previous ('-' :: '>' :: rest) =
      (splitCommas depth ' ' rest).map (['-', '>'].foldr prepend) := by
  rw [splitCommas.eq_def]
  simp only [Char.reduceEq, or_self, if_false, false_and]
  rw [splitCommas.eq_def, ← splitCommas_previous (by decide : '>' ≠ '-')]
  simp [Function.comp_def]

theorem splitCommas_plain {c : Char} (depth : Nat) (previous : Char) (rest : List Char)
    (plain : isPlain c = true) : splitCommas depth previous (c :: rest) =
      (splitCommas depth ' ' rest).map (prepend c) := by
  simp only [isPlain, List.contains_cons, List.contains_nil, Bool.or_false, Bool.not_or,
    Bool.and_eq_true, Bool.not_eq_true', beq_eq_false_iff_ne] at plain
  rw [splitCommas.eq_def, ← splitCommas_previous (by simp [plain] : c ≠ '-')]
  simp [plain]

namespace Balanced

theorem nil (least : Nat) : Balanced least [] where
  parens depth rest := by
    simp
  commas depth previous rest _ hp := by
    rw [List.nil_append, splitCommas_previous hp]
    simp

theorem append {least : Nat} {a b : List Char} (ha : Balanced least a)
    (hb : Balanced least b) : Balanced least (a ++ b) where
  parens depth rest := by
    rw [List.append_assoc, ha.parens, hb.parens, Option.map_map]
    congr 1
    funext ⟨inside, after⟩
    simp
  commas depth previous rest hd hp := by
    rw [List.append_assoc, ha.commas depth previous _ hd hp,
      hb.commas depth ' ' rest hd (by decide), Option.map_map]
    congr 1
    funext pieces
    simp

theorem mono {least most : Nat} {text : List Char} (h : Balanced least text)
    (hle : least ≤ most) : Balanced most text where
  parens := h.parens
  commas depth previous rest hd hp :=
    h.commas depth previous rest (Nat.le_trans hle hd) hp

theorem plain {text : List Char} (h : ∀ c ∈ text, isPlain c = true) : Balanced 0 text := by
  induction text with
  | nil => exact nil 0
  | cons c rest ih =>
      have hc : isPlain c = true := h c List.mem_cons_self
      have one : Balanced 0 [c] := by
        refine ⟨fun depth rest => ?_, fun depth previous rest _ _ => ?_⟩
        · apply closeParen_other
          · rintro rfl
            exact absurd hc (by decide)
          · rintro rfl
            exact absurd hc (by decide)
        · exact splitCommas_plain depth previous rest hc
      exact one.append (ih fun d hd => h d (List.mem_cons_of_mem c hd))

theorem arrow : Balanced 0 ['-', '>'] where
  parens depth rest := by
    simp [closeParen_other, Function.comp_def]
  commas depth previous rest _ _ := splitCommas_arrow depth previous rest

theorem comma : Balanced 1 [','] where
  parens depth rest := closeParen_other depth rest (by decide) (by decide)
  commas depth previous rest hd _ := by
    obtain ⟨depth, rfl⟩ : ∃ d, depth = d + 1 := ⟨depth - 1, by omega⟩
    exact splitCommas_comma depth previous rest

/-- Brackets let commas stand between them that could not stand outside. -/
theorem bracketed {least : Nat} {opening closing : Char} {text : List Char}
    (pair : opening = '(' ∧ closing = ')' ∨ opening = '<' ∧ closing = '>' ∨
      opening = '[' ∧ closing = ']')
    (h : Balanced (least + 1) text) : Balanced least (opening :: (text ++ [closing])) where
  parens depth rest := by
    rw [List.cons_append, List.append_assoc, List.singleton_append]
    rcases pair with ⟨rfl, rfl⟩ | ⟨rfl, rfl⟩ | ⟨rfl, rfl⟩
    · rw [closeParen_open, h.parens, closeParen_close]
      simp [Function.comp_def]
    · rw [closeParen_other depth _ (by decide) (by decide), h.parens,
        closeParen_other depth rest (by decide) (by decide)]
      simp [Function.comp_def]
    · rw [closeParen_other depth _ (by decide) (by decide), h.parens,
        closeParen_other depth rest (by decide) (by decide)]
      simp [Function.comp_def]
  commas depth previous rest hd _ := by
    have opens : opening = '<' ∨ opening = '(' ∨ opening = '[' := by
      rcases pair with ⟨rfl, _⟩ | ⟨rfl, _⟩ | ⟨rfl, _⟩ <;> simp
    have closes : closing = '>' ∨ closing = ')' ∨ closing = ']' := by
      rcases pair with ⟨_, rfl⟩ | ⟨_, rfl⟩ | ⟨_, rfl⟩ <;> simp
    rw [List.cons_append, splitCommas_open depth previous _ opens, List.append_assoc,
      h.commas (depth + 1) ' ' _ (Nat.succ_le_succ hd) (by decide), List.singleton_append,
      splitCommas_close depth rest closes (by decide)]
    simp [Function.comp_def]

/-- The parenthesis behind a balanced text closes the one before it. -/
theorem closeParen_eq {least : Nat} {text : List Char} (h : Balanced least text)
    (after : List Char) : closeParen 0 (text ++ ')' :: after) = some (text, after) := by
  rw [h.parens, closeParen.eq_def]
  simp

end Balanced

end TypeText

end ModuleTyping
