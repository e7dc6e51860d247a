import ModuleTyping.Proofs.Outcomes
import ModuleTyping.Proofs.Ty.Shapes

/-!
# The texts that can be read

The reader of types accepts the texts of the grammar. Every compact text is read, which
is shown by induction on the length of the text: the grammar is ambiguous, so the pieces
that the reader goes on with need not be those of the derivation, but they are shorter
and derivable again. In the other direction every text that is read is derivable with
blanks between its tokens, once the blanks at its two ends are taken off.

That direction needs the type parameters to be names, since a type parameter is read
whatever its spelling.
-/

namespace ModuleTyping

open Text TypeText

/-! ## Compact texts are read -/

namespace TypeText

theorem Listed.length_le {gaps : Gaps} {items : List (List Char)} {list : List Char}
    (h : Listed gaps items list) : ∀ item ∈ items, item.length ≤ list.length := by
  induction h with
  | none => simp
  | one item => simp
  | more item _ _ _ ih =>
      intro other mem
      rcases List.mem_cons.mp mem with rfl | mem
      · simp
      · have := ih other mem
        simp only [List.length_append, List.length_cons]
        omega

theorem Derives.enclosed_brackets {inside : List Char} (inner : Derives .compact inside)
    (count : Nat) : Derives .compact ('(' :: (inside ++ ')' :: brackets count)) := by
  induction count with
  | zero => exact inner.compact_enclosed
  | succ count ih => simpa [brackets_succ] using ih.compact_array

end TypeText

namespace Ty

variable {typeParams : List String}

/-- The items of a written list can be read, once every shorter text can. -/
theorem exists_read_listed {size : Nat} {items : List (List Char)} {list : List Char}
    (shorter : ∀ {text}, text.length < size → Derives .compact text →
      ∃ ty, read typeParams text = .ok ty)
    (listed : Listed .compact items list) (each : ∀ item ∈ items, Derives .compact item)
    (bound : list.length < size) :
    ∃ tys, List.Forall₂ (fun text ty => read typeParams text = .ok ty) items tys := by
  have fits := listed.length_le
  clear listed
  induction items with
  | nil => exact ⟨[], .nil⟩
  | cons item items ih =>
      have fit := fits item List.mem_cons_self
      obtain ⟨ty, first⟩ := shorter (by omega) (each item List.mem_cons_self)
      obtain ⟨tys, others⟩ := ih (fun other mem => each other (List.mem_cons_of_mem item mem))
        (fun other mem => fits other (List.mem_cons_of_mem item mem))
      exact ⟨ty :: tys, .cons first others⟩

theorem exists_ofName? (typeParams : List String) {name : List Char}
    (wellFormed : isTypeName name = true) :
    ∃ ty, ofName? typeParams name = some ty := by
  by_cases unit : String.ofList name = "unit"
  · exact ⟨.unit, by simp [ofName?, unit]⟩
  · by_cases param : String.ofList name ∈ typeParams
    · exact ⟨.var (String.ofList name) none, by simp [ofName?, unit, param]⟩
    · exact ⟨.primitive (String.ofList name), by simp [ofName?, unit, param, wellFormed]⟩

/-- What stands in the parentheses of a text decides how the reader goes on, whatever
production the text was written by. -/
theorem exists_read_of_paren {rest : List Char}
    (shorter : ∀ {text}, text.length < ('(' :: rest).length → Derives .compact text →
      ∃ ty, read typeParams text = .ok ty)
    (h : Derives .compact ('(' :: rest)) : ∃ ty, read typeParams ('(' :: rest) = .ok ty := by
  rcases h.behind_paren with ⟨params, list, before, after, result, items, listed, returned,
    hb, ha, rfl⟩ | ⟨inside, count, inner, rfl⟩
  · obtain ⟨tys, readParams⟩ := exists_read_listed shorter listed items (by grind)
    obtain ⟨ty, readResult⟩ := shorter (by grind) returned
    exact ⟨_, read_function items listed returned hb ha readParams readResult⟩
  · cases count with
    | zero =>
        obtain ⟨ty, readInside⟩ := shorter (by grind) inner
        exact ⟨ty, read_enclosed inner readInside⟩
    | succ count =>
        have element := inner.enclosed_brackets count
        obtain ⟨ty, readElement⟩ := shorter (by simp [brackets_succ]) element
        have operand : Operand ('(' :: (inside ++ ')' :: brackets count)) :=
          .inr ⟨inside, count, inner.balanced.mono (Nat.zero_le 1), rfl⟩
        refine ⟨.array ty, ?_⟩
        simpa [brackets_succ] using read_array element operand readElement

/-- With neither a parenthesis in front nor brackets behind, the last production shows in
the text. -/
theorem exists_read_of_bare {text : List Char}
    (shorter : ∀ {piece}, piece.length < text.length → Derives .compact piece →
      ∃ ty, read typeParams piece = .ok ty)
    (paren : text.head? ≠ some '(') (bracket : text.getLast? ≠ some ']')
    (h : Derives .compact text) : ∃ ty, read typeParams text = .ok ty := by
  cases h with
  | function => exact absurd rfl paren
  | array => simp at bracket
  | @application _ list _ _ _ args name applied items listed hb ho hc =>
      obtain rfl := hb
      obtain rfl := ho
      obtain rfl := hc
      obtain ⟨tys, readArgs⟩ := exists_read_listed shorter listed items (by grind)
      exact ⟨_, by simpa using read_application name applied items listed readArgs⟩
  | @ref referent _ referents hg =>
      obtain rfl := hg
      have unambiguous : ¬ ['[', ']'] <:+ referent := by
        rintro ⟨init, rfl⟩
        simp [List.getLast?_cons] at bracket
      obtain ⟨ty, readReferent⟩ := shorter (by simp) referents
      exact ⟨.ref ty, read_ref referents unambiguous readReferent⟩
  | @mutRef referent _ referents hg =>
      obtain rfl := hg
      have unambiguous : ¬ ['[', ']'] <:+ referent := by
        rintro ⟨init, rfl⟩
        simp [List.getLast?_cons] at bracket
      obtain ⟨ty, readReferent⟩ := shorter (by grind) referents
      exact ⟨.mutRef ty, read_mutRef referents unambiguous readReferent⟩
  | enclosed => exact absurd rfl paren
  | name name =>
      obtain ⟨ty, found⟩ := exists_ofName? typeParams name
      exact ⟨ty, read_name name found⟩

theorem exists_read_of_derives {text : List Char} (h : Derives .compact text) :
    ∃ ty, read typeParams text = .ok ty := by
  induction size : text.length using Nat.strongRecOn generalizing text with
  | ind size ih =>
      subst size
      have shorter {piece : List Char} (less : piece.length < text.length)
          (derived : Derives .compact piece) : ∃ ty, read typeParams piece = .ok ty :=
        ih piece.length less derived rfl
      by_cases paren : text.head? = some '('
      · obtain ⟨rest, rfl⟩ := List.head?_eq_some_iff.mp paren
        exact exists_read_of_paren shorter h
      · by_cases bracket : text.getLast? = some ']'
        · obtain ⟨element, rfl, elements⟩ := h.of_brackets bracket
          obtain ⟨ty, readElement⟩ := shorter (by simp) elements
          obtain ⟨c, rest, rfl⟩ := List.exists_cons_of_ne_nil elements.tight.ne_nil
          exact ⟨.array ty, read_array elements (.inl paren) readElement⟩
        · exact exists_read_of_bare shorter paren bracket h

end Ty

/-! ## Texts that are read are derivable -/

namespace TypeText

theorem closeParen_spec {depth : Nat} {text inside after : List Char}
    (h : closeParen depth text = some (inside, after)) : text = inside ++ ')' :: after := by
  induction text generalizing depth inside after with
  | nil => simp [closeParen] at h
  | cons c rest ih =>
      have step : ∀ {d : Nat}, (closeParen d rest).map (fun parts =>
          (c :: parts.1, parts.2)) = some (inside, after) →
            c :: rest = inside ++ ')' :: after := by
        intro d hd
        obtain ⟨⟨i, a⟩, found, parts⟩ := Option.map_eq_some_iff.mp hd
        obtain ⟨rfl, rfl⟩ := Prod.mk.inj parts
        rw [ih found, List.cons_append]
      unfold closeParen at h
      split at h
      · exact step h
      · split at h
        · rename_i closing
          subst closing
          cases depth with
          | zero =>
              obtain ⟨rfl, rfl⟩ := Prod.mk.inj (Option.some.inj h)
              rfl
          | succ depth => exact step h
        · exact step h

/-- The pieces of a text, put together with commas again, are the text. -/
theorem splitCommas_spec {depth : Nat} {previous : Char} {text : List Char}
    {pieces : List (List Char)} (h : splitCommas depth previous text = some pieces) :
    pieces ≠ [] ∧ text = [','].intercalate pieces := by
  induction text generalizing depth previous pieces with
  | nil =>
      unfold splitCommas at h
      split at h
      · obtain rfl := Option.some.inj h
        exact ⟨by simp, rfl⟩
      · cases h
  | cons c rest ih =>
      have step : ∀ {d : Nat}, (splitCommas d c rest).map (prepend c) = some pieces →
          pieces ≠ [] ∧ c :: rest = [','].intercalate pieces := by
        intro d hd
        obtain ⟨others, found, rfl⟩ := Option.map_eq_some_iff.mp hd
        obtain ⟨nonempty, rfl⟩ := ih found
        obtain ⟨piece, others, rfl⟩ := List.exists_cons_of_ne_nil nonempty
        refine ⟨by simp [prepend], ?_⟩
        cases others with
        | nil => simp [prepend, List.intercalate]
        | cons next others => simp [prepend, List.intercalate_cons_cons]
      unfold splitCommas at h
      split at h
      · exact step h
      · split at h
        · exact step h
        · split at h
          · cases depth with
            | zero => cases h
            | succ depth => exact step h
          · split at h
            · rename_i comma
              obtain ⟨rfl, _⟩ := comma
              obtain ⟨others, found, rfl⟩ := Option.map_eq_some_iff.mp h
              obtain ⟨nonempty, rfl⟩ := ih found
              obtain ⟨piece, others, rfl⟩ := List.exists_cons_of_ne_nil nonempty
              exact ⟨by simp, by simp [List.intercalate_cons_cons]⟩
            · exact step h

/-- The text that a shape was found in, put together from the pieces of the shape. -/
def Shaped (text : List Char) : TypeText → Prop
  | .function params result => ∃ inside gap, Blank gap ∧ items? inside = some params ∧
      text = '(' :: (inside ++ ')' :: (gap ++ '-' :: '>' :: result))
  | .enclosed inside => text = '(' :: (inside ++ [')'])
  | .array element => text = element ++ ['[', ']']
  | .ref referent => text = '&' :: referent
  | .mutRef referent => text = '&' :: 'm' :: 'u' :: 't' :: ' ' :: referent
  | .application base args => ∃ word list, base = trim word ∧ isTypeName base = true ∧
      items? list = some args ∧ args ≠ [] ∧ text = word ++ '<' :: (list ++ ['>'])
  | .name word => text = word
  | .malformed => True

theorem shaped_ofBare (text : List Char) : Shaped text (ofBare text) := by
  unfold ofBare
  split
  · rfl
  · rfl
  · split
    · rfl
    · rename_i c inner found
      dsimp only
      split
      · trivial
      · rename_i list dropped
        split
        · rename_i name
          split
          · trivial
          · trivial
          · rename_i args nonempty items
            obtain rfl := dropAngle?_eq_some_iff.mp dropped
            obtain rfl : c = '<' := by
              have stop := List.head?_dropWhile_not (· ≠ '<') text
              rw [found] at stop
              simpa using stop
            refine ⟨text.takeWhile (· ≠ '<'), list, rfl, name, items, ?_, ?_⟩
            · rintro rfl
              exact nonempty rfl
            · rw [← found, List.takeWhile_append_dropWhile]
        · trivial

theorem shaped_ofSuffixed (text : List Char) : Shaped text (ofSuffixed text) := by
  unfold ofSuffixed
  split
  · rename_i element found
    exact dropBrackets?_eq_some_iff.mp found
  · exact shaped_ofBare text

/-- Whatever shape the reader finds, the text is made of its pieces in that way. -/
theorem shaped_ofTrimmed (text : List Char) : Shaped text (ofTrimmed text) := by
  unfold ofTrimmed
  split
  · trivial
  · rename_i rest
    split
    · trivial
    · rename_i inside after closed
      obtain rfl := closeParen_spec closed
      split
      · rename_i result arrow
        split
        · trivial
        · rename_i params items
          refine ⟨inside, after.takeWhile isBlank, ?_, items, ?_⟩
          · intro c hc
            exact List.all_eq_true.mp List.all_takeWhile c hc
          · rw [← arrow, trimStart, List.takeWhile_append_dropWhile]
      · split
        · rename_i empty
          rw [empty]
          rfl
        · exact shaped_ofSuffixed _
  · exact shaped_ofSuffixed _

/-- A text that the grammar derives with blanks between its tokens, and blanks around it. -/
def Spelled (text : List Char) : Prop :=
  ∃ before core after, Blank before ∧ Blank after ∧ text = before ++ core ++ after ∧
    Derives .loose core

theorem Spelled.of_trim {text : List Char} (h : Spelled (trim text)) : Spelled text := by
  obtain ⟨before, core, after, hb, ha, shape, derived⟩ := h
  obtain ⟨front, back, hf, hk, whole⟩ := trim_spec text
  refine ⟨front ++ before, core, after ++ back, hf.append hb, ha.append hk, ?_, derived⟩
  rw [whole, shape]
  simp

/-- Pieces that are spelled, with commas between them, make up a list of the grammar. -/
theorem listed_of_spelled {pieces : List (List Char)} (nonempty : pieces ≠ [])
    (each : ∀ piece ∈ pieces, Spelled piece) :
    ∃ before after items list, Blank before ∧ Blank after ∧ items ≠ [] ∧
      (∀ item ∈ items, Derives .loose item) ∧ Listed .loose items list ∧
      [','].intercalate pieces = before ++ list ++ after := by
  induction pieces with
  | nil => exact absurd rfl nonempty
  | cons piece others ih =>
      obtain ⟨before, core, gap, hb, hg, rfl, derived⟩ := each piece List.mem_cons_self
      cases others with
      | nil =>
          refine ⟨before, gap, [core], core, hb, hg, by simp, ?_, .one core, ?_⟩
          · simpa using derived
          · simp [List.intercalate]
      | cons next others =>
          obtain ⟨front, after, items, list, hf, ha, some, derivedItems, listed, joined⟩ :=
            ih (List.cons_ne_nil next others)
              fun other mem => each other (List.mem_cons_of_mem _ mem)
          obtain ⟨item, items, rfl⟩ := List.exists_cons_of_ne_nil some
          refine ⟨before, after, core :: item :: items, _, hb, ha, by simp, ?_,
            .more core hg hf listed, ?_⟩
          · intro other mem
            rcases List.mem_cons.mp mem with rfl | mem
            · exact derived
            · exact derivedItems other mem
          · rw [List.intercalate_cons_cons, joined]
            simp

theorem blank_of_trim_eq_nil {text : List Char} (h : trim text = []) : Blank text := by
  obtain ⟨before, after, hb, ha, whole⟩ := trim_spec text
  rw [whole, h, List.append_nil]
  exact hb.append ha

/-- A text whose items are spelled is blank, or a list of the grammar between blanks. -/
theorem listed_of_items {text : List Char} {items : List (List Char)}
    (h : items? text = some items) (each : ∀ item ∈ items, Spelled item) :
    ∃ before after derived list, Blank before ∧ Blank after ∧
      (items ≠ [] → derived ≠ []) ∧ (∀ item ∈ derived, Derives .loose item) ∧
      Listed .loose derived list ∧ text = before ++ list ++ after := by
  unfold items? at h
  split at h
  · cases h
  · rename_i pieces scanned
    obtain ⟨nonempty, joined⟩ := splitCommas_spec scanned
    split at h
    · rename_i trimmed
      obtain rfl := Option.some.inj h
      obtain ⟨piece, rfl, empty⟩ := List.map_eq_singleton_iff.mp trimmed
      refine ⟨text, [], [], [], ?_, Blank.nil, by simp, by simp, .none, by simp⟩
      rw [joined]
      simpa [List.intercalate] using blank_of_trim_eq_nil empty
    · obtain rfl := Option.some.inj h
      have spelled : ∀ piece ∈ pieces, Spelled piece :=
        fun piece mem => .of_trim (each _ (List.mem_map_of_mem mem))
      obtain ⟨before, after, derived, list, hb, ha, some, items, listed, whole⟩ :=
        listed_of_spelled nonempty spelled
      exact ⟨before, after, derived, list, hb, ha, fun _ => some, items, listed,
        joined.trans whole⟩

end TypeText

namespace Ty

variable {typeParams : List String}

theorem isTypeName_of_ofName? {name : List Char} {ty : Ty}
    (named : ∀ param ∈ typeParams, isTypeName param.toList = true)
    (h : ofName? typeParams name = some ty) : isTypeName name = true := by
  by_cases unit : String.ofList name = "unit"
  · have word := congrArg String.toList unit
    rw [String.toList_ofList] at word
    rw [word]
    decide
  · by_cases param : String.ofList name ∈ typeParams
    · simpa using named _ param
    · simp only [ofName?, unit, param, if_false] at h
      split at h
      · assumption
      · cases h

theorem each_of_mapM_read {texts : List (List Char)} {tys : List Ty}
    (h : texts.mapM (read typeParams) = .ok tys) :
    ∀ text ∈ texts, ∃ ty, read typeParams text = .ok ty := by
  intro text member
  obtain ⟨ty, -, reads⟩ := exists_related (mapM_eq_ok_iff.mp h) member
  exact ⟨ty, reads⟩

/-- A text that is read is spelled by the grammar. -/
theorem spelled_of_read {text : List Char} {ty : Ty}
    (named : ∀ param ∈ typeParams, isTypeName param.toList = true)
    (h : read typeParams text = .ok ty) : Spelled text := by
  induction text using induction_on_pieces generalizing ty with
  | whole text ih =>
      have pieces : ∀ piece ∈ (ofText text).pieces,
          (∃ ty, read typeParams piece = .ok ty) → Spelled piece := by
        rintro piece mem ⟨ty, found⟩
        exact ih piece mem found
      have shaped : Shaped (trim text) (ofText text) := shaped_ofTrimmed (trim text)
      apply Spelled.of_trim
      rw [read_eq] at h
      generalize ofText text = shape at h shaped pieces
      cases shape with
      | function params result =>
          obtain ⟨tys, readParams, h⟩ := bind_eq_ok_iff.mp h
          obtain ⟨ty, readResult, _⟩ := bind_eq_ok_iff.mp h
          obtain ⟨inside, gap, hg, items, whole⟩ := shaped
          obtain ⟨opened, closed, derived, list, ho, hc, _, each, listed, rfl⟩ :=
            listed_of_items items fun param mem =>
              pieces param (List.mem_cons_of_mem _ mem) (each_of_mapM_read readParams param mem)
          obtain ⟨before, core, after, hb, ha, rfl, returned⟩ :=
            pieces result List.mem_cons_self ⟨ty, readResult⟩
          exact ⟨[], _, after, Blank.nil, ha, by rw [whole]; simp,
            .function each listed returned ho hc hg hb⟩
      | enclosed inside =>
          obtain ⟨before, core, after, hb, ha, rfl, inner⟩ :=
            pieces inside List.mem_cons_self ⟨ty, h⟩
          exact ⟨[], _, [], Blank.nil, Blank.nil, by rw [shaped]; simp,
            .enclosed inner hb ha⟩
      | array element =>
          obtain ⟨ty, readElement, _⟩ := bind_eq_ok_iff.mp h
          obtain ⟨before, core, after, hb, ha, rfl, elements⟩ :=
            pieces element List.mem_cons_self ⟨ty, readElement⟩
          exact ⟨before, _, [], hb, Blank.nil, by rw [shaped]; simp, .array elements ha⟩
      | ref referent =>
          obtain ⟨ty, readReferent, _⟩ := bind_eq_ok_iff.mp h
          obtain ⟨before, core, after, hb, ha, rfl, referents⟩ :=
            pieces referent List.mem_cons_self ⟨ty, readReferent⟩
          exact ⟨[], _, after, Blank.nil, ha, by rw [shaped]; simp, .ref referents hb⟩
      | mutRef referent =>
          obtain ⟨ty, readReferent, _⟩ := bind_eq_ok_iff.mp h
          obtain ⟨before, core, after, hb, ha, rfl, referents⟩ :=
            pieces referent List.mem_cons_self ⟨ty, readReferent⟩
          exact ⟨[], _, after, Blank.nil, ha, by rw [shaped]; simp, .mutRef referents hb⟩
      | application base args =>
          obtain ⟨tys, readArgs, _⟩ := bind_eq_ok_iff.mp h
          obtain ⟨word, inside, trimmed, name, items, applied, whole⟩ := shaped
          obtain ⟨opened, closed, derived, list, ho, hc, some, each, listed, rfl⟩ :=
            listed_of_items items fun arg mem =>
              pieces arg mem (each_of_mapM_read readArgs arg mem)
          obtain ⟨before, after, hb, ha, spelling⟩ := trim_spec word
          rw [← trimmed] at spelling
          exact ⟨before, _, [], hb, Blank.nil, by rw [whole, spelling]; simp,
            .application name (some applied) each listed ha ho hc⟩
      | name name =>
          have wellFormed : isTypeName name = true := by
            dsimp only at h
            cases found : ofName? typeParams name with
            | none =>
                rw [found] at h
                cases h
            | some ty => exact isTypeName_of_ofName? named found
          exact ⟨[], _, [], Blank.nil, Blank.nil, by rw [shaped]; simp, .name wellFormed⟩
      | malformed => cases h

/-- The reader accepts the grammar of types. It reads every compact text, and every text
that it reads is derivable with blanks between its tokens and at its two ends. -/
theorem reads_grammar (named : ∀ param ∈ typeParams, isTypeName param.toList = true)
    (text : List Char) :
    (Derives .compact text → ∃ ty, read typeParams text = .ok ty) ∧
      ((∃ ty, read typeParams text = .ok ty) →
        ∃ before core after, Blank before ∧ Blank after ∧ text = before ++ core ++ after ∧
          Derives .loose core) := by
  constructor
  · exact exists_read_of_derives
  · rintro ⟨ty, h⟩
    exact spelled_of_read named h

theorem reads_grammar_function :
    (∀ param ∈ ["T"], isTypeName param.toList = true) ∧
      Derives .compact "(&mut T,Option<T>) -> i32[]".toList ∧
      (∃ ty, read ["T"] "(&mut T,Option<T>) -> i32[]".toList = .ok ty) ∧
      ∃ before core after, Blank before ∧ Blank after ∧
        "(&mut T,Option<T>) -> i32[]".toList = before ++ core ++ after ∧
        Derives .loose core := by
  have named : ∀ param ∈ ["T"], isTypeName param.toList = true := by decide
  have first : Derives .compact "&mut T".toList := .compact_mutRef (.name (by decide))
  have second : Derives .compact "Option<T>".toList :=
    .compact_application (by decide : isTypeName "Option".toList = true) (List.cons_ne_nil _ [])
      (by simpa using .name (by decide)) (.one ['T'])
  have result : Derives .compact "i32[]".toList :=
    Derives.compact_array (.name (by decide : isTypeName "i32".toList = true))
  have params : Listed .compact ["&mut T".toList, "Option<T>".toList]
      ("&mut T".toList ++ ([] ++ ',' :: ([] ++ "Option<T>".toList))) :=
    .more _ rfl (by simp [Gaps.compact]) (.one _)
  have derived : Derives .compact "(&mut T,Option<T>) -> i32[]".toList :=
    Derives.compact_function (by simpa using ⟨first, second⟩) params result
      (by simp : ∀ c ∈ [' '], c = ' ') (by simp : ∀ c ∈ [' '], c = ' ')
  obtain ⟨accepts, sound⟩ := reads_grammar named "(&mut T,Option<T>) -> i32[]".toList
  exact ⟨named, derived, accepts derived, sound (accepts derived)⟩

/-- Blanks at the ends of a text are passed over although no two tokens stand around them. -/
theorem reads_outer_blank :
    read [] " i32".toList = .ok i32 ∧ ¬ Derives .loose " i32".toList := by
  constructor
  · have name : isTypeName "i32".toList = true := by decide
    have inner : read [] "i32".toList = .ok i32 := read_name name rfl
    have blank : Blank [' '] := blank_of_spaces (by simp)
    exact read_between (tight_of_isTypeName name) blank Blank.nil inner
  · intro derived
    obtain ⟨c, head, visible⟩ := derived.tight.head
    obtain rfl : c = ' ' := by simpa using head.symm
    exact absurd visible (by decide)

end Ty

end ModuleTyping
