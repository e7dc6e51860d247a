import ModuleTyping.Fault
import ModuleTyping.Text.Blank

/-!
# Reading types

The text of a type is read from the outside in. `TypeText.ofText` finds the outermost
shape of a text, as pieces that are types themselves, and `Ty.read` reads the pieces in
turn. Every piece is shorter than the text it comes from (`TypeText.length_lt`), so
reading ends.

A name among the given type parameters is read as a variable, and every other name as a
type known by that name. Blanks around a piece do not count.
-/

namespace ModuleTyping

/-- The outermost shape of the text of a type. -/
inductive TypeText where
  | function (params : List (List Char)) (result : List Char)
  | enclosed (inside : List Char)
  | array (element : List Char)
  | ref (referent : List Char)
  | mutRef (referent : List Char)
  | application (base : List Char) (args : List (List Char))
  | name (name : List Char)
  | malformed

namespace TypeText

/-- A letter, an underscore, and then letters, digits, underscores and colons, all of them
ASCII. -/
def isTypeName : List Char → Bool
  | [] => false
  | c :: rest =>
    (c.isAlpha || c == '_') && rest.all fun d => d.isAlphanum || d == '_' || d == ':'

/-- Parts the text behind an opening parenthesis at the parenthesis that closes it;
`depth` counts those opened since. -/
def closeParen (depth : Nat) : List Char → Option (List Char × List Char)
  | [] => none
  | c :: rest =>
    if c = '(' then (closeParen (depth + 1) rest).map fun (inside, after) => (c :: inside, after)
    else if c = ')' then
      match depth with
      | 0 => some ([], rest)
      | depth + 1 => (closeParen depth rest).map fun (inside, after) => (c :: inside, after)
    else (closeParen depth rest).map fun (inside, after) => (c :: inside, after)

/-- Puts a character before the first of the pieces. -/
def prepend (c : Char) : List (List Char) → List (List Char)
  | [] => [[c]]
  | piece :: others => (c :: piece) :: others

/-- The pieces of a text between the commas that stand in no brackets. The point of an
arrow closes nothing; `previous` is the character before the text. -/
def splitCommas (depth : Nat) (previous : Char) : List Char → Option (List (List Char))
  | [] => if depth = 0 then some [[]] else none
  | c :: rest =>
    if c = '<' ∨ c = '(' ∨ c = '[' then (splitCommas (depth + 1) c rest).map (prepend c)
    else if c = '>' ∧ previous = '-' then (splitCommas depth c rest).map (prepend c)
    else if c = '>' ∨ c = ')' ∨ c = ']' then
      match depth with
      | 0 => none
      | depth + 1 => (splitCommas depth c rest).map (prepend c)
    else if c = ',' ∧ depth = 0 then (splitCommas 0 c rest).map ([] :: ·)
    else (splitCommas depth c rest).map (prepend c)

/-- The items of a list of types, without the blanks around them. A blank text is a list
without items. -/
def items? (text : List Char) : Option (List (List Char)) :=
  match splitCommas 0 '\x00' text with
  | none => none
  | some pieces =>
    match pieces.map Text.trim with
    | [[]] => some []
    | items => some items

/-- The text without the pair of brackets it ends with. -/
def dropBrackets? (text : List Char) : Option (List Char) :=
  match text.reverse with
  | ']' :: '[' :: rest => some rest.reverse
  | _ => none

/-- The text without the angle bracket it ends with. -/
def dropAngle? (text : List Char) : Option (List Char) :=
  match text.reverse with
  | '>' :: rest => some rest.reverse
  | _ => none

/-- The shape of a text that ends as a reference, an application or a name does. -/
def ofBare (text : List Char) : TypeText :=
  match text with
  | '&' :: 'm' :: 'u' :: 't' :: ' ' :: referent => .mutRef referent
  | '&' :: referent => .ref referent
  | text =>
    match text.dropWhile (· ≠ '<') with
    | [] => .name text
    | _ :: inner =>
      let base := Text.trim (text.takeWhile (· ≠ '<'))
      match dropAngle? inner with
      | none => .malformed
      | some inner =>
        if isTypeName base then
          match items? inner with
          | none => .malformed
          | some [] => .malformed
          | some args => .application base args
        else .malformed

/-- The shape of a text that is not a function type and not enclosed in parentheses. -/
def ofSuffixed (text : List Char) : TypeText :=
  match dropBrackets? text with
  | some element => .array element
  | none => ofBare text

/-- The shape of a text without blanks at its ends. -/
def ofTrimmed (text : List Char) : TypeText :=
  match text with
  | [] => .malformed
  | '(' :: rest =>
    match closeParen 0 rest with
    | none => .malformed
    | some (inside, after) =>
      match Text.trimStart after with
      | '-' :: '>' :: result =>
        match items? inside with
        | none => .malformed
        | some params => .function params result
      | _ => if after = [] then .enclosed inside else ofSuffixed text
  | text => ofSuffixed text

/-- The outermost shape of a text. -/
def ofText (text : List Char) : TypeText :=
  ofTrimmed (Text.trim text)

/-- The pieces of a shape, which are read in turn. -/
def pieces : TypeText → List (List Char)
  | function params result => result :: params
  | enclosed inside => [inside]
  | array element => [element]
  | ref referent => [referent]
  | mutRef referent => [referent]
  | application _ args => args
  | name _ => []
  | malformed => []

end TypeText

namespace Text

theorem length_dropWhile_le (p : Char → Bool) (text : List Char) :
    (text.dropWhile p).length ≤ text.length :=
  (List.dropWhile_sublist p).length_le

theorem length_trimStart_le (text : List Char) : (trimStart text).length ≤ text.length :=
  length_dropWhile_le isBlank text

theorem length_trim_le (text : List Char) : (trim text).length ≤ text.length := by
  have := length_dropWhile_le isBlank (trimStart text).reverse
  have := length_trimStart_le text
  simp only [trim, trimEnd, List.length_reverse] at *
  omega

end Text

namespace TypeText

theorem length_of_closeParen {depth : Nat} {text inside after : List Char}
    (h : closeParen depth text = some (inside, after)) :
    inside.length + after.length + 1 = text.length := by
  induction text generalizing depth inside after with
  | nil => simp [closeParen] at h
  | cons c rest ih =>
    have step : ∀ {d : Nat},
        (closeParen d rest).map (fun (inside, after) => (c :: inside, after)) =
          some (inside, after) → inside.length + after.length + 1 = (c :: rest).length := by
      intro d hd
      obtain ⟨⟨i, a⟩, hc, he⟩ := Option.map_eq_some_iff.mp hd
      obtain ⟨rfl, rfl⟩ := Prod.mk.inj he
      have := ih hc
      simp only [List.length_cons]
      omega
    unfold closeParen at h
    split at h
    · exact step h
    · split at h
      · cases depth with
        | zero =>
          obtain ⟨rfl, rfl⟩ := Prod.mk.inj (Option.some.inj h)
          simp
        | succ depth => exact step h
      · exact step h

theorem length_le_of_mem_prepend {c : Char} {ps : List (List Char)} {n : Nat}
    (h : ∀ p ∈ ps, p.length ≤ n) : ∀ p ∈ prepend c ps, p.length ≤ n + 1 := by
  intro p hp
  cases ps with
  | nil =>
    obtain rfl := List.mem_singleton.mp hp
    simp
  | cons first others =>
    rcases List.mem_cons.mp hp with rfl | hp
    · have := h first List.mem_cons_self
      simp only [List.length_cons]
      omega
    · have := h p (List.mem_cons_of_mem _ hp)
      omega

theorem length_le_of_mem_splitCommas {depth : Nat} {previous : Char} {text : List Char}
    {ps : List (List Char)} (h : splitCommas depth previous text = some ps) :
    ∀ p ∈ ps, p.length ≤ text.length := by
  induction text generalizing depth previous ps with
  | nil =>
    unfold splitCommas at h
    split at h
    · obtain rfl := Option.some.inj h
      simp
    · simp at h
  | cons c rest ih =>
    have step : ∀ {d : Nat}, (splitCommas d c rest).map (prepend c) = some ps →
        ∀ p ∈ ps, p.length ≤ (c :: rest).length := by
      intro d hd
      obtain ⟨qs, hq, rfl⟩ := Option.map_eq_some_iff.mp hd
      exact length_le_of_mem_prepend (ih hq)
    unfold splitCommas at h
    split at h
    · exact step h
    · split at h
      · exact step h
      · split at h
        · cases depth with
          | zero => simp at h
          | succ depth => exact step h
        · split at h
          · obtain ⟨qs, hq, rfl⟩ := Option.map_eq_some_iff.mp h
            intro p hp
            rcases List.mem_cons.mp hp with rfl | hp
            · simp
            · have := ih hq p hp
              simp only [List.length_cons]
              omega
          · exact step h

theorem length_le_of_mem_items {text : List Char} {items : List (List Char)}
    (h : items? text = some items) : ∀ p ∈ items, p.length ≤ text.length := by
  unfold items? at h
  split at h
  · simp at h
  · rename_i ps hs
    have trimmed : ∀ p ∈ ps.map Text.trim, p.length ≤ text.length := by
      intro p hp
      obtain ⟨q, hq, rfl⟩ := List.mem_map.mp hp
      exact Nat.le_trans (Text.length_trim_le q) (length_le_of_mem_splitCommas hs q hq)
    split at h
    · obtain rfl := Option.some.inj h
      simp
    · obtain rfl := Option.some.inj h
      exact trimmed

theorem length_of_dropBrackets {text element : List Char}
    (h : dropBrackets? text = some element) : element.length < text.length := by
  unfold dropBrackets? at h
  split at h
  · rename_i rest hr
    obtain rfl := Option.some.inj h
    have : text.reverse.length = rest.length + 2 := by simp [hr]
    simp only [List.length_reverse] at *
    omega
  · simp at h

theorem length_of_dropAngle {text inner : List Char}
    (h : dropAngle? text = some inner) : inner.length < text.length := by
  unfold dropAngle? at h
  split at h
  · rename_i rest hr
    obtain rfl := Option.some.inj h
    have : text.reverse.length = rest.length + 1 := by simp [hr]
    simp only [List.length_reverse] at *
    omega
  · simp at h

theorem length_lt_ofBare {text : List Char} :
    ∀ p ∈ (ofBare text).pieces, p.length < text.length := by
  unfold ofBare
  split
  · simp [pieces]
    omega
  · simp [pieces]
  · split
    · simp [pieces]
    · rename_i inner hd
      have shorter : inner.length < text.length := by
        have := Text.length_dropWhile_le (· ≠ '<') text
        rw [hd, List.length_cons] at this
        omega
      dsimp only
      split
      · simp [pieces]
      · rename_i inside ha
        have := length_of_dropAngle ha
        split
        · split
          · simp [pieces]
          · simp [pieces]
          · rename_i items _ hi
            intro p hp
            have := length_le_of_mem_items hi p hp
            omega
        · simp [pieces]

theorem length_lt_ofSuffixed {text : List Char} :
    ∀ p ∈ (ofSuffixed text).pieces, p.length < text.length := by
  unfold ofSuffixed
  split
  · rename_i element hb
    simpa [pieces] using length_of_dropBrackets hb
  · exact length_lt_ofBare

theorem length_lt_ofTrimmed {text : List Char} :
    ∀ p ∈ (ofTrimmed text).pieces, p.length < text.length := by
  unfold ofTrimmed
  split
  · simp [pieces]
  · rename_i rest
    split
    · simp [pieces]
    · rename_i inside after hc
      have parted := length_of_closeParen hc
      split
      · rename_i result hr
        have := Text.length_trimStart_le after
        simp only [hr, List.length_cons] at this
        split
        · simp [pieces]
        · rename_i params hi
          intro p hp
          rcases List.mem_cons.mp hp with rfl | hp
          · simp only [List.length_cons]
            omega
          · have := length_le_of_mem_items hi p hp
            simp only [List.length_cons]
            omega
      · split
        · simp only [pieces, List.mem_singleton, List.length_cons, forall_eq]
          omega
        · exact length_lt_ofSuffixed
  · exact length_lt_ofSuffixed

/-- Every piece is shorter than the text it comes from. -/
theorem length_lt {text : List Char} : ∀ p ∈ (ofText text).pieces, p.length < text.length := by
  intro p hp
  exact Nat.lt_of_lt_of_le (length_lt_ofTrimmed p hp) (Text.length_trim_le text)

end TypeText

namespace Ty

/-- The type a name stands for. A type parameter may have any name; other names must be
well formed. -/
def ofName? (typeParams : List String) (name : List Char) : Option Ty :=
  let word := String.ofList name
  if word = "unit" then some .unit
  else if word ∈ typeParams then some (.var word none)
  else if TypeText.isTypeName name then some (.primitive word)
  else none

/-- A named type applied to arguments, where a map is a shape of its own. -/
def ofApplication (base : String) (args : List Ty) : Ty :=
  match base, args with
  | "Map", [key, value] => .map key value
  | base, args => .generic (.primitive base) args

/-- Reads a type from its text. -/
def read (typeParams : List String) (text : List Char) : Except Cause Ty :=
  match _h : TypeText.ofText text with
  | .function params result => do
    let params ← params.attach.mapM fun ⟨param, _⟩ => read typeParams param
    return .function params (← read typeParams result)
  | .enclosed inside => read typeParams inside
  | .array element => return .array (← read typeParams element)
  | .ref referent => return .ref (← read typeParams referent)
  | .mutRef referent => return .mutRef (← read typeParams referent)
  | .application base args => do
    let args ← args.attach.mapM fun ⟨arg, _⟩ => read typeParams arg
    return ofApplication (String.ofList base) args
  | .name name =>
    match ofName? typeParams name with
    | some ty => .ok ty
    | none => .error (.malformedType (String.ofList text))
  | .malformed => .error (.malformedType (String.ofList text))
termination_by text.length
decreasing_by
  all_goals
    apply TypeText.length_lt
    simp [TypeText.pieces, *]

/-- Reading takes the outermost shape of a text and reads its pieces. -/
theorem read_eq (typeParams : List String) (text : List Char) :
    read typeParams text =
      match TypeText.ofText text with
      | .function params result => do
        let params ← params.mapM (read typeParams)
        return .function params (← read typeParams result)
      | .enclosed inside => read typeParams inside
      | .array element => return .array (← read typeParams element)
      | .ref referent => return .ref (← read typeParams referent)
      | .mutRef referent => return .mutRef (← read typeParams referent)
      | .application base args => do
        let args ← args.mapM (read typeParams)
        return ofApplication (String.ofList base) args
      | .name name =>
        match ofName? typeParams name with
        | some ty => .ok ty
        | none => .error (.malformedType (String.ofList text))
      | .malformed => .error (.malformedType (String.ofList text)) := by
  rw [read]
  split <;> rename_i h <;> simp [h]

end Ty

end ModuleTyping
