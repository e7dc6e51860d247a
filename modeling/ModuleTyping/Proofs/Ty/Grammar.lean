import ModuleTyping.Proofs.Ty.Scanning

/-!
# The grammar of type texts

`Derives` is the grammar of types, one constructor for each production:

    type := "(" [type ("," type)*] ")" "->" type | type "[]" | name "<" type ("," type)* ">"
          | "&" type | "&mut " type | "(" type ")" | name

It knows nothing of the order in which a reader tries the productions. Where gaps may
stand between two tokens is left to a parameter: `Gaps.compact` allows spaces behind
commas and around arrows only, `Gaps.loose` allows blanks between any two tokens.

The second half of the module looks at compact texts. They are balanced, they stay
derivable without a last pair of brackets, and a text behind an opening parenthesis is
either a function type or an enclosed type with brackets behind it.
-/

namespace ModuleTyping.TypeText

open Text

/-- The gaps that may stand behind a comma, around an arrow, and between other tokens. -/
structure Gaps where
  afterComma : List Char → Prop
  aroundArrow : List Char → Prop
  elsewhere : List Char → Prop

/-- Spaces behind commas and around arrows, and no other gaps. -/
def Gaps.compact : Gaps where
  afterComma gap := ∀ c ∈ gap, c = ' '
  aroundArrow gap := ∀ c ∈ gap, c = ' '
  elsewhere gap := gap = []

/-- Blanks between any two tokens. -/
def Gaps.loose : Gaps where
  afterComma := Blank
  aroundArrow := Blank
  elsewhere := Blank

/-- The items, in their order and with commas between them, make up the text. -/
inductive Listed (gaps : Gaps) : List (List Char) → List Char → Prop where
  | none : Listed gaps [] []
  | one (item : List Char) : Listed gaps [item] item
  | more {next rest before after : List Char} {items : List (List Char)} (item : List Char)
      (hb : gaps.elsewhere before) (ha : gaps.afterComma after)
      (others : Listed gaps (next :: items) rest) :
      Listed gaps (item :: next :: items) (item ++ (before ++ ',' :: (after ++ rest)))

/-- The texts of types. -/
inductive Derives (gaps : Gaps) : List Char → Prop where
  | function {params : List (List Char)} {list result opened closed before after : List Char}
      (items : ∀ param ∈ params, Derives gaps param) (listed : Listed gaps params list)
      (returned : Derives gaps result) (ho : gaps.elsewhere opened)
      (hc : gaps.elsewhere closed) (hb : gaps.aroundArrow before)
      (ha : gaps.aroundArrow after) :
      Derives gaps ('(' :: ((opened ++ list ++ closed) ++
        ')' :: (before ++ '-' :: '>' :: (after ++ result))))
  | array {element gap : List Char} (elements : Derives gaps element)
      (hg : gaps.elsewhere gap) : Derives gaps (element ++ (gap ++ ['[', ']']))
  | application {base list before opened closed : List Char} {args : List (List Char)}
      (name : isTypeName base = true) (some : args ≠ [])
      (items : ∀ arg ∈ args, Derives gaps arg) (listed : Listed gaps args list)
      (hb : gaps.elsewhere before) (ho : gaps.elsewhere opened)
      (hc : gaps.elsewhere closed) :
      Derives gaps (base ++ (before ++ '<' :: ((opened ++ list ++ closed) ++ ['>'])))
  | ref {referent gap : List Char} (referents : Derives gaps referent)
      (hg : gaps.elsewhere gap) : Derives gaps ('&' :: (gap ++ referent))
  | mutRef {referent gap : List Char} (referents : Derives gaps referent)
      (hg : gaps.elsewhere gap) :
      Derives gaps ('&' :: 'm' :: 'u' :: 't' :: ' ' :: (gap ++ referent))
  | enclosed {inside opened closed : List Char} (inner : Derives gaps inside)
      (ho : gaps.elsewhere opened) (hc : gaps.elsewhere closed) :
      Derives gaps ('(' :: ((opened ++ inside ++ closed) ++ [')']))
  | name {text : List Char} (name : isTypeName text = true) : Derives gaps text

/-! ## Names -/

/-- A character that may stand in a name behind its first. -/
def isNameChar (c : Char) : Bool :=
  c.isAlphanum || c == '_' || c == ':'

theorem isNameChar_of_isTypeName {text : List Char} (h : isTypeName text = true) :
    ∀ c ∈ text, isNameChar c = true := by
  cases text with
  | nil => cases h
  | cons first rest =>
      simp only [isTypeName, Bool.and_eq_true, List.all_eq_true] at h
      intro c hc
      rcases List.mem_cons.mp hc with rfl | hc
      · rcases Bool.or_eq_true_iff.mp h.1 with letter | underscore
        · simp [isNameChar, Char.isAlphanum, letter]
        · simp [isNameChar, underscore]
      · exact h.2 c hc

theorem isNameChar_range {c : Char} (h : isNameChar c = true) :
    48 ≤ c.toNat ∧ c.toNat ≤ 122 := by
  have within {first last : Char} (between : first.val ≤ c.val ∧ c.val ≤ last.val)
      (low : 48 ≤ first.toNat) (high : last.toNat ≤ 122) : 48 ≤ c.toNat ∧ c.toNat ≤ 122 :=
    ⟨Nat.le_trans low (UInt32.le_iff_toNat_le.mp between.1),
      Nat.le_trans (UInt32.le_iff_toNat_le.mp between.2) high⟩
  simp only [isNameChar, Char.isAlphanum, Bool.or_eq_true, beq_iff_eq] at h
  rcases h with ((letter | digit) | rfl) | rfl
  · rcases Bool.or_eq_true_iff.mp letter with upper | lower
    · exact within (of_decide_eq_true upper) (by decide) (by decide)
    · obtain ⟨least, most⟩ := Bool.and_eq_true_iff.mp lower
      exact within ⟨of_decide_eq_true least, of_decide_eq_true most⟩ (by decide) (by decide)
  · obtain ⟨least, most⟩ := Char.isDigit_iff_toNat.mp digit
    exact ⟨least, Nat.le_trans most (by decide)⟩
  · decide
  · decide

theorem isBlank_of_isNameChar {c : Char} (h : isNameChar c = true) : isBlank c = false := by
  have range := isNameChar_range h
  simp only [isBlank, Bool.or_eq_false_iff, Bool.and_eq_false_iff, decide_eq_false_iff_not,
    beq_eq_false_iff_ne]
  omega

theorem isPlain_of_isNameChar {c : Char} (h : isNameChar c = true) : isPlain c = true := by
  rw [isPlain, Bool.not_eq_true', ← Bool.not_eq_true, List.contains_iff_mem]
  intro special
  have none : ['<', '(', '[', '>', ')', ']', ',', '-'].all (isNameChar · == false) = true := by
    decide
  have foreign := List.all_eq_true.mp none c special
  simp [h] at foreign

/-- A name has no character that names cannot have. -/
theorem not_mem_of_isTypeName {text : List Char} {c : Char} (h : isTypeName text = true)
    (hc : isNameChar c = false) : c ∉ text := by
  intro mem
  rw [isNameChar_of_isTypeName h c mem] at hc
  cases hc

theorem tight_of_isTypeName {text : List Char} (h : isTypeName text = true) : Tight text := by
  have visible : ∀ c ∈ text, isBlank c = false :=
    fun c hc => isBlank_of_isNameChar (isNameChar_of_isTypeName h c hc)
  have nonempty : text ≠ [] := by
    rintro rfl
    cases h
  exact ⟨⟨text.head nonempty, List.head?_eq_some_head nonempty,
      visible _ (List.head_mem nonempty)⟩,
    ⟨text.getLast nonempty, List.getLast?_eq_some_getLast nonempty,
      visible _ (List.getLast_mem nonempty)⟩⟩

/-- The first character of a name can open no other production. -/
theorem head_of_isTypeName {text : List Char} {c : Char} (h : isTypeName text = true)
    (hc : isNameChar c = false) : text.head? ≠ some c :=
  fun head => not_mem_of_isTypeName h hc (List.mem_of_head? head)

theorem balanced_of_isTypeName {text : List Char} (h : isTypeName text = true) :
    Balanced 0 text :=
  .plain fun c hc => isPlain_of_isNameChar (isNameChar_of_isTypeName h c hc)

/-- A text starts and ends with a token, whatever gaps may stand between them. -/
theorem Derives.tight {gaps : Gaps} {text : List Char} (h : Derives gaps text) :
    Tight text := by
  induction h with
  | function _ _ _ _ _ _ _ _ returned =>
      obtain ⟨c, last, hc⟩ := returned.last
      exact ⟨⟨'(', rfl, by decide⟩, ⟨c, by simp [List.getLast?_cons, last], hc⟩⟩
  | array _ _ elements =>
      obtain ⟨c, head, hc⟩ := elements.head
      exact ⟨⟨c, by simp [head], hc⟩, ⟨']', by simp, by decide⟩⟩
  | application name =>
      obtain ⟨c, head, hc⟩ := (tight_of_isTypeName name).head
      exact ⟨⟨c, by simp [head], hc⟩, ⟨'>', by simp [List.getLast?_cons], by decide⟩⟩
  | ref _ _ referents =>
      obtain ⟨c, last, hc⟩ := referents.last
      exact ⟨⟨'&', rfl, by decide⟩, ⟨c, by simp [List.getLast?_cons, last], hc⟩⟩
  | mutRef _ _ referents =>
      obtain ⟨c, last, hc⟩ := referents.last
      exact ⟨⟨'&', rfl, by decide⟩, ⟨c, by simp [List.getLast?_cons, last], hc⟩⟩
  | enclosed =>
      exact ⟨⟨'(', rfl, by decide⟩, ⟨')', by simp [List.getLast?_cons], by decide⟩⟩
  | name name => exact tight_of_isTypeName name

/-! ## Compact texts -/

/-- Pairs of brackets, one behind the other. -/
def brackets (count : Nat) : List Char :=
  (List.replicate count ['[', ']']).flatten

theorem balanced_of_spaces {gap : List Char} (spaces : ∀ c ∈ gap, c = ' ') :
    Balanced 0 gap := by
  refine .plain fun c hc => ?_
  rw [spaces c hc]
  decide

theorem Listed.balanced {items : List (List Char)} {list : List Char}
    (h : Listed .compact items list) (each : ∀ item ∈ items, Balanced 0 item) :
    Balanced 1 list := by
  induction h with
  | none => exact .nil 1
  | one item => exact (each item List.mem_cons_self).mono (Nat.zero_le 1)
  | more item hb ha _ ih =>
      obtain rfl := hb
      have first : Balanced 1 item := (each item List.mem_cons_self).mono (Nat.zero_le 1)
      have gap := (balanced_of_spaces ha).mono (Nat.zero_le 1)
      have others := ih fun other mem => each other (List.mem_cons_of_mem item mem)
      exact first.append (Balanced.comma.append (gap.append others))

namespace Derives

/-! The productions as they are used for compact texts, without the empty gaps. -/

theorem compact_function {params : List (List Char)} {list before after result : List Char}
    (items : ∀ param ∈ params, Derives .compact param) (listed : Listed .compact params list)
    (returned : Derives .compact result) (hb : ∀ c ∈ before, c = ' ')
    (ha : ∀ c ∈ after, c = ' ') :
    Derives .compact ('(' :: (list ++ ')' :: (before ++ '-' :: '>' :: (after ++ result)))) := by
  have whole := @function .compact params list result [] [] before after items listed returned
    rfl rfl hb ha
  rwa [List.nil_append, List.append_nil] at whole

theorem compact_array {element : List Char} (elements : Derives .compact element) :
    Derives .compact (element ++ ['[', ']']) :=
  @array .compact element [] elements rfl

theorem compact_application {base list : List Char} {args : List (List Char)}
    (name : isTypeName base = true) (applied : args ≠ [])
    (items : ∀ arg ∈ args, Derives .compact arg) (listed : Listed .compact args list) :
    Derives .compact (base ++ '<' :: (list ++ ['>'])) := by
  have whole := @application .compact base list [] [] [] args name applied items listed
    rfl rfl rfl
  rwa [List.nil_append, List.nil_append, List.append_nil] at whole

theorem compact_ref {referent : List Char} (referents : Derives .compact referent) :
    Derives .compact ('&' :: referent) :=
  @ref .compact referent [] referents rfl

theorem compact_mutRef {referent : List Char} (referents : Derives .compact referent) :
    Derives .compact ('&' :: 'm' :: 'u' :: 't' :: ' ' :: referent) :=
  @mutRef .compact referent [] referents rfl

theorem compact_enclosed {inside : List Char} (inner : Derives .compact inside) :
    Derives .compact ('(' :: (inside ++ [')'])) := by
  have whole := @enclosed .compact inside [] [] inner rfl rfl
  rwa [List.nil_append, List.append_nil] at whole

theorem balanced {text : List Char} (h : Derives .compact text) : Balanced 0 text := by
  induction h with
  | function _ listed _ ho hc hb ha items returned =>
      obtain rfl := ho
      obtain rfl := hc
      have params := Balanced.bracketed (.inl ⟨rfl, rfl⟩) (listed.balanced items)
      have arrow := (balanced_of_spaces hb).append
        (Balanced.arrow.append ((balanced_of_spaces ha).append returned))
      simpa using params.append arrow
  | array _ hg elements =>
      obtain rfl := hg
      exact elements.append (.bracketed (.inr (.inr ⟨rfl, rfl⟩)) (.nil 1))
  | application name _ _ listed hb ho hc items =>
      obtain rfl := hb
      obtain rfl := ho
      obtain rfl := hc
      have args := Balanced.bracketed (.inr (.inl ⟨rfl, rfl⟩)) (listed.balanced items)
      simpa using (balanced_of_isTypeName name).append args
  | ref _ hg referents =>
      obtain rfl := hg
      have sign : Balanced 0 ['&'] := .plain (List.all_eq_true.mp (by decide))
      exact sign.append referents
  | mutRef _ hg referents =>
      obtain rfl := hg
      have sign : Balanced 0 ['&', 'm', 'u', 't', ' '] :=
        .plain (List.all_eq_true.mp (by decide))
      exact sign.append referents
  | enclosed _ ho hc inner =>
      obtain rfl := ho
      obtain rfl := hc
      simpa using Balanced.bracketed (.inl ⟨rfl, rfl⟩) (inner.mono (Nat.zero_le 1))
  | name name => exact balanced_of_isTypeName name

/-- The word that a text starts with has no space behind it. -/
theorem head_behind_word {text : List Char} (h : Derives .compact text) :
    (text.dropWhile isNameChar).head? ≠ some ' ' := by
  have passed : ∀ {word : List Char}, isTypeName word = true → ∀ rest,
      (word ++ rest).dropWhile isNameChar = rest.dropWhile isNameChar :=
    fun name rest => List.dropWhile_append_of_pos (isNameChar_of_isTypeName name)
  induction h with
  | function => simp [show isNameChar '(' = false by decide]
  | @array element _ _ hg elements =>
      obtain rfl := hg
      rw [List.dropWhile_append]
      cases behind : element.dropWhile isNameChar with
      | nil => simp [show isNameChar '[' = false by decide]
      | cons c rest => simpa [behind] using elements
  | application name _ _ _ hb =>
      obtain rfl := hb
      rw [passed name]
      simp [show isNameChar '<' = false by decide]
  | ref => simp [show isNameChar '&' = false by decide]
  | mutRef => simp [show isNameChar '&' = false by decide]
  | enclosed => simp [show isNameChar '(' = false by decide]
  | name name =>
      have whole := passed name []
      rw [List.append_nil] at whole
      simp [whole]

/-- A type behind the sign of a reference does not turn the sign into another one. -/
theorem ne_mut {text : List Char} (h : Derives .compact text) (rest : List Char) :
    text ≠ 'm' :: 'u' :: 't' :: ' ' :: rest := by
  rintro rfl
  apply h.head_behind_word
  simp [show isNameChar 'm' = true by decide, show isNameChar 'u' = true by decide,
    show isNameChar 't' = true by decide, show isNameChar ' ' = false by decide]

/-- A text that ends with a bracket ends with a pair of brackets, and is still derivable
without them, whichever part of it they belong to. -/
theorem of_brackets {text : List Char} (h : Derives .compact text)
    (last : text.getLast? = some ']') :
    ∃ element, text = element ++ ['[', ']'] ∧ Derives .compact element := by
  induction h with
  | function items listed returned ho hc hb ha _ ih =>
      obtain ⟨c, hlast, _⟩ := returned.tight.last
      have ends : c = ']' := by simpa [List.getLast?_cons, hlast] using last
      obtain ⟨result, rfl, derived⟩ := ih (ends ▸ hlast)
      exact ⟨_, by simp, .function items listed derived ho hc hb ha⟩
  | array elements hg =>
      obtain rfl := hg
      exact ⟨_, rfl, elements⟩
  | application => simp [List.getLast?_cons] at last
  | ref referents hg ih =>
      obtain ⟨c, hlast, _⟩ := referents.tight.last
      have ends : c = ']' := by simpa [List.getLast?_cons, hlast] using last
      obtain ⟨referent, rfl, derived⟩ := ih (ends ▸ hlast)
      exact ⟨_, by simp, .ref derived hg⟩
  | mutRef referents hg ih =>
      obtain ⟨c, hlast, _⟩ := referents.tight.last
      have ends : c = ']' := by simpa [List.getLast?_cons, hlast] using last
      obtain ⟨referent, rfl, derived⟩ := ih (ends ▸ hlast)
      exact ⟨_, by simp, .mutRef derived hg⟩
  | enclosed => simp [List.getLast?_cons] at last
  | name name =>
      exact absurd (List.mem_of_getLast? last) (not_mem_of_isTypeName name (by decide))

/-- What follows an opening parenthesis makes a function type or an enclosed type with
brackets behind it, whichever production the text was derived by. -/
theorem behind_paren {rest : List Char} (h : Derives .compact ('(' :: rest)) :
    (∃ params list before after result, (∀ param ∈ params, Derives .compact param) ∧
      Listed .compact params list ∧ Derives .compact result ∧ (∀ c ∈ before, c = ' ') ∧
      (∀ c ∈ after, c = ' ') ∧
      rest = list ++ ')' :: (before ++ '-' :: '>' :: (after ++ result))) ∨
    (∃ inside count, Derives .compact inside ∧ rest = inside ++ ')' :: brackets count) := by
  generalize shape : '(' :: rest = text at h
  induction h generalizing rest with
  | function items listed returned ho hc hb ha =>
      obtain rfl := ho
      obtain rfl := hc
      obtain rfl := (List.cons.inj shape).2
      exact .inl ⟨_, _, _, _, _, items, listed, returned, hb, ha, by simp⟩
  | @array element _ elements hg ih =>
      obtain rfl := hg
      cases element with
      | nil => exact absurd rfl elements.tight.ne_nil
      | cons c inner =>
          obtain ⟨rfl, rfl⟩ := List.cons.inj shape
          rcases ih rfl with ⟨params, list, before, after, result, items, listed, returned,
            hb, ha, rfl⟩ | ⟨inside, count, derived, rfl⟩
          · exact .inl ⟨params, list, before, after, result ++ ['[', ']'], items, listed,
              returned.compact_array, hb, ha, by simp⟩
          · refine .inr ⟨inside, count + 1, derived, ?_⟩
            simp [brackets, List.replicate_succ']
  | @application base _ _ _ _ _ name =>
      cases base with
      | nil => cases name
      | cons c word =>
          obtain ⟨rfl, _⟩ := List.cons.inj shape
          cases name
  | ref => cases shape
  | mutRef => cases shape
  | enclosed inner ho hc =>
      obtain rfl := ho
      obtain rfl := hc
      obtain rfl := (List.cons.inj shape).2
      exact .inr ⟨_, 0, inner, by simp [brackets]⟩
  | name name =>
      subst shape
      cases name

end Derives

end ModuleTyping.TypeText
