import ModuleTyping.Json.Reader
import ModuleTyping.Json.Writer

/-!
# Reading written JSON

A value that is written as a text and read again is the value it was (`Plain.read?_toText`). The
tokens of a value stand between the two machines: the text of a value is cut into its tokens,
whatever the level of indentation, and from its tokens the value is put together.

The values are those that summaries are made of. They hold no numbers, and every text in
them spells characters only.
-/

namespace ModuleTyping.Json

/-- The units are those of a text. -/
def Spelled (units : JsonText) : Prop :=
  ∃ text : String, units = .ofText text

/-- The values without numbers whose texts spell characters. -/
inductive Plain : Json → Prop where
  | null : Plain null
  | bool (value : Bool) : Plain (bool value)
  | text {value : JsonText} (spelled : Spelled value) : Plain (text value)
  | array {elements : List Json} (each : ∀ value ∈ elements, Plain value) :
      Plain (array elements)
  | object {members : List (JsonText × Json)} (names : ∀ member ∈ members, Spelled member.1)
      (each : ∀ member ∈ members, Plain member.2) : Plain (object members)

mutual

/-- The tokens of a value. -/
def tokens : Json → List Token
  | null => [.word ['n', 'u', 'l', 'l']]
  | bool true => [.word ['t', 'r', 'u', 'e']]
  | bool false => [.word ['f', 'a', 'l', 's', 'e']]
  | number digits => [.number digits]
  | text value => [.text value]
  | array [] => [.mark '[', .mark ']']
  | array (value :: rest) => .mark '[' :: tokens value ++ elementTokens rest ++ [.mark ']']
  | object [] => [.mark '\x7b', .mark '\x7d']
  | object ((name, value) :: rest) =>
    .mark '\x7b' :: .text name :: .mark ':' :: tokens value ++ memberTokens rest ++ [.mark '\x7d']

/-- The tokens of the elements of an array after the first. -/
def elementTokens : List Json → List Token
  | [] => []
  | value :: rest => .mark ',' :: tokens value ++ elementTokens rest

/-- The tokens of the members of an object after the first. -/
def memberTokens : List (JsonText × Json) → List Token
  | [] => []
  | (name, value) :: rest =>
    .mark ',' :: .text name :: .mark ':' :: tokens value ++ memberTokens rest

end

/-- A character that completes no token. -/
theorem lexFrom_inside {state next : LexState} {c : Char} (taken : step state c = some ([], next))
    (rest : List Char) : lexFrom state (c :: rest) = lexFrom next rest := by
  simp [lexFrom, taken]

/-! ### Texts -/

theorem hexValue?_hexDigit {n : Nat} (small : n < 16) :
    Decimal.hexValue? (Decimal.hexDigit n) = some n := by
  revert n
  decide

/-- An escape by code unit is read as the unit it writes. -/
theorem lexFrom_unitEscape {unit : Nat} (small : unit < 0x10000) (units : JsonText)
    (rest : List Char) :
    lexFrom (.unitEscape units 3 0) (Decimal.hexDigits 4 unit ++ rest) =
      lexFrom (.text (unit :: units)) rest := by
  have digits : Decimal.hexDigits 4 unit =
      [Decimal.hexDigit (unit / 16 / 16 / 16 % 16), Decimal.hexDigit (unit / 16 / 16 % 16),
        Decimal.hexDigit (unit / 16 % 16), Decimal.hexDigit (unit % 16)] := rfl
  have value : (((0 * 16 + unit / 16 / 16 / 16 % 16) * 16 + unit / 16 / 16 % 16) * 16 +
      unit / 16 % 16) * 16 + unit % 16 = unit := by
    omega
  rw [digits]
  simp only [List.cons_append, List.nil_append, lexFrom, step,
    hexValue?_hexDigit (Nat.mod_lt _ (by decide : 0 < 16)), value, Option.map_id_fun', id_eq]

theorem lexFrom_shortEscape {c : Char} {unit : Nat} (short : shortEscape? c = some unit)
    (units : JsonText) (rest : List Char) :
    lexFrom (.text units) ('\\' :: c :: rest) = lexFrom (.text (unit :: units)) rest := by
  have other : c ≠ 'u' := by
    rintro rfl
    cases short
  simp [lexFrom, step, other, short]

/-- Inside a text, what is written for a character is read as its unit. -/
theorem lexFrom_escapeUnit (c : Char) (units : JsonText) (rest : List Char) :
    lexFrom (.text units) (escapeUnit c.toNat ++ rest) =
      lexFrom (.text (c.toNat :: units)) rest := by
  unfold escapeUnit
  -- the characters that have a letter of their own
  iterate 7
    split
    · next same => exact same ▸ lexFrom_shortEscape rfl units rest
  split
  · next control =>
    refine Eq.trans ?_ (lexFrom_unitEscape (Nat.lt_trans control (by decide)) units rest)
    simp [lexFrom, step]
  · next notQuote notBackslash _ _ _ _ _ printed =>
    have quote : c ≠ '"' := fun same => notQuote (congrArg Char.toNat same)
    have backslash : c ≠ '\\' := fun same => notBackslash (congrArg Char.toNat same)
    simp [lexFrom, step, quote, backslash, printed]

/-- The text between quotes is one token. -/
theorem lexFrom_writeText {units : JsonText} (spelled : Spelled units) (rest : List Char) :
    lexFrom .between (writeText units ++ rest) =
      (lexFrom .between rest).map (.text units :: ·) := by
  obtain ⟨text, rfl⟩ := spelled
  have inside (chars : List Char) (before : JsonText) :
      lexFrom (.text before)
          ((chars.map Char.toNat).flatMap escapeUnit ++ ('"' :: rest)) =
        (lexFrom .between rest).map (.text (before.reverse ++ chars.map Char.toNat) :: ·) := by
    induction chars generalizing before with
    | nil => simp [lexFrom, step]
    | cons c chars ih =>
        rw [List.map_cons, List.flatMap_cons, List.append_assoc, lexFrom_escapeUnit, ih]
        simp
  rw [writeText, List.cons_append, List.cons_append, List.append_assoc, lexFrom_inside rfl]
  exact inside text.toList []

/-! ### Between texts -/

theorem lexFrom_mark {c : Char} (mark : isMark c = true) (rest : List Char) :
    lexFrom .between (c :: rest) = (lexFrom .between rest).map (.mark c :: ·) := by
  have visible : isBlank c = false := by
    simp only [isMark, Bool.or_eq_true, beq_iff_eq] at mark
    rcases mark with ((((rfl | rfl) | rfl) | rfl) | rfl) | rfl <;> rfl
  simp [lexFrom, step, startToken, visible, mark]

theorem lexFrom_newLine (level : Nat) (rest : List Char) :
    lexFrom .between (newLine level ++ rest) = lexFrom .between rest := by
  have spaces (count : Nat) :
      lexFrom .between (List.replicate count ' ' ++ rest) = lexFrom .between rest := by
    induction count with
    | zero => rfl
    | succ count ih => rw [List.replicate_succ, List.cons_append, lexFrom_inside rfl, ih]
  rw [newLine, List.cons_append, lexFrom_inside rfl, spaces]

/-- What follows does not go on with a word. -/
def Ends (rest : List Char) : Prop :=
  ∀ c ∈ rest.head?, c.isAlpha = false

/-- The rest of a word, up to where it ends. -/
theorem lexFrom_word {letters more rest : List Char}
    (alphabetic : more.all Char.isAlpha = true) (ends : Ends rest) :
    lexFrom (.word letters) (more ++ rest) =
      (lexFrom .between rest).map (.word (letters.reverse ++ more) :: ·) := by
  induction more generalizing letters with
  | nil =>
      rw [List.nil_append, List.append_nil]
      cases rest with
      | nil => rfl
      | cons c rest =>
          have stop : c.isAlpha = false := ends c rfl
          simp only [lexFrom, step, stop]
          cases startToken c with
          | none => rfl
          | some next => simp [after, Function.comp_def]
  | cons c more ih =>
      rw [List.all_cons, Bool.and_eq_true] at alphabetic
      have taken : step (.word letters) c = some ([], .word (c :: letters)) :=
        if_pos alphabetic.1
      rw [List.cons_append, lexFrom_inside taken, ih alphabetic.2, List.reverse_cons,
        List.append_assoc, List.singleton_append]

theorem Ends.newLine (level : Nat) (rest : List Char) : Ends (newLine level ++ rest) := by
  rintro c ⟨⟩
  rfl

theorem Ends.writeElements {rest : List Char} (ends : Ends rest) (level : Nat)
    (elements : List Json) : Ends (writeElements level elements ++ rest) := by
  cases elements with
  | nil => exact ends
  | cons value elements =>
      rintro c ⟨⟩
      rfl

theorem Ends.writeMembers {rest : List Char} (ends : Ends rest) (level : Nat)
    (members : List (JsonText × Json)) : Ends (writeMembers level members ++ rest) := by
  cases members with
  | nil => exact ends
  | cons member members =>
      rintro c ⟨⟩
      rfl

/-! ### Values -/

/-- The text of a value is cut into the tokens of the value. -/
def Lexes (value : Json) : Prop :=
  ∀ (level : Nat) {rest : List Char}, Ends rest →
    lexFrom .between (write level value ++ rest) = (lexFrom .between rest).map (tokens value ++ ·)

theorem lexFrom_writeElements {elements : List Json} (each : ∀ value ∈ elements, Lexes value)
    (level : Nat) {rest : List Char} (ends : Ends rest) :
    lexFrom .between (writeElements level elements ++ rest) =
      (lexFrom .between rest).map (elementTokens elements ++ ·) := by
  induction elements with
  | nil => simp [writeElements, elementTokens]
  | cons value elements ih =>
      have first := each value List.mem_cons_self level (ends.writeElements level elements)
      have others := ih fun value member => each value (List.mem_cons_of_mem _ member)
      rw [writeElements]
      simp only [List.cons_append, List.append_assoc]
      rw [lexFrom_mark rfl, lexFrom_newLine, first, others]
      simp [elementTokens, Function.comp_def]

/-- The name of a member and the colon and space behind it. -/
theorem lexFrom_name {name : JsonText} (spelled : Spelled name) (rest : List Char) :
    lexFrom .between (writeText name ++ ':' :: ' ' :: rest) =
      (lexFrom .between rest).map (fun tokens => .text name :: .mark ':' :: tokens) := by
  rw [lexFrom_writeText spelled, lexFrom_mark rfl, lexFrom_inside rfl, Option.map_map]
  rfl

theorem lexFrom_writeMembers {members : List (JsonText × Json)}
    (names : ∀ member ∈ members, Spelled member.1) (each : ∀ member ∈ members, Lexes member.2)
    (level : Nat) {rest : List Char} (ends : Ends rest) :
    lexFrom .between (writeMembers level members ++ rest) =
      (lexFrom .between rest).map (memberTokens members ++ ·) := by
  induction members with
  | nil => simp [writeMembers, memberTokens]
  | cons member members ih =>
      obtain ⟨name, value⟩ := member
      have spelled := names _ List.mem_cons_self
      have first := each _ List.mem_cons_self level (ends.writeMembers level members)
      have others := ih (fun member listed => names member (List.mem_cons_of_mem _ listed))
        fun member listed => each member (List.mem_cons_of_mem _ listed)
      rw [writeMembers]
      simp only [List.cons_append, List.nil_append, List.append_assoc]
      rw [lexFrom_mark rfl, lexFrom_newLine, lexFrom_name spelled, first, others]
      simp [memberTokens, Function.comp_def]

theorem Plain.lexes {value : Json} (plain : Plain value) : Lexes value := by
  induction plain with
  | null =>
      intro level rest ends
      rw [write]
      exact (lexFrom_inside rfl _).trans (lexFrom_word rfl ends)
  | bool value =>
      intro level rest ends
      cases value <;> rw [write]
      · exact (lexFrom_inside rfl _).trans (lexFrom_word rfl ends)
      · exact (lexFrom_inside rfl _).trans (lexFrom_word rfl ends)
  | text spelled =>
      intro level rest ends
      exact lexFrom_writeText spelled rest
  | @array elements _ each =>
      intro level rest ends
      cases elements with
      | nil =>
          rw [write, List.cons_append, lexFrom_mark rfl, List.cons_append, lexFrom_mark rfl]
          simp [tokens, Function.comp_def]
      | cons value elements =>
          have first := each value List.mem_cons_self
          have others := lexFrom_writeElements fun value member =>
            each value (List.mem_cons_of_mem _ member)
          have closed : Ends (newLine level ++ ']' :: rest) := .newLine level _
          rw [write]
          simp only [List.cons_append, List.nil_append, List.append_assoc]
          rw [lexFrom_mark rfl, lexFrom_newLine, first _ (closed.writeElements _ _),
            others _ closed, lexFrom_newLine, lexFrom_mark rfl]
          simp [tokens, Function.comp_def]
  | @object members names _ each =>
      intro level rest ends
      cases members with
      | nil =>
          rw [write, List.cons_append, lexFrom_mark rfl, List.cons_append, lexFrom_mark rfl]
          simp [tokens, Function.comp_def]
      | cons member members =>
          obtain ⟨name, value⟩ := member
          have spelled := names _ List.mem_cons_self
          have first := each _ List.mem_cons_self
          have others := lexFrom_writeMembers
            (fun member listed => names member (List.mem_cons_of_mem _ listed))
            fun member listed => each member (List.mem_cons_of_mem _ listed)
          have closed : Ends (newLine level ++ '\x7d' :: rest) := .newLine level _
          rw [write]
          simp only [List.cons_append, List.nil_append, List.append_assoc]
          rw [lexFrom_mark rfl, lexFrom_newLine, lexFrom_name spelled,
            first _ (closed.writeMembers _ _), others _ closed, lexFrom_newLine, lexFrom_mark rfl]
          simp [tokens, Function.comp_def]

/-! ### Putting tokens together -/

/-- The tokens of a value are put together to the value. -/
def Assembles (value : Json) : Prop :=
  ∀ (stack : List Frame) (rest : List Token),
    readFrom .value stack (tokens value ++ rest) = readFrom (.complete value) stack rest

theorem readFrom_elementTokens {elements : List Json}
    (each : ∀ value ∈ elements, Assembles value) (value : Json) (before : List Json)
    (stack : List Frame) (rest : List Token) :
    readFrom (.complete value) (.array before :: stack)
        (elementTokens elements ++ .mark ']' :: rest) =
      readFrom (.complete (.array (before.reverse ++ value :: elements))) stack rest := by
  induction elements generalizing value before with
  | nil => simp [elementTokens, readFrom, take, afterValue]
  | cons next elements ih =>
      have first := each next List.mem_cons_self
      have others := ih fun value member => each value (List.mem_cons_of_mem _ member)
      rw [elementTokens]
      simp only [List.cons_append, List.append_assoc, readFrom, take, afterValue]
      rw [first, others]
      simp

theorem readFrom_memberTokens {members : List (JsonText × Json)}
    (each : ∀ member ∈ members, Assembles member.2) (name : JsonText) (value : Json)
    (before : List (JsonText × Json)) (stack : List Frame) (rest : List Token) :
    readFrom (.complete value) (.object before name :: stack)
        (memberTokens members ++ .mark '\x7d' :: rest) =
      readFrom (.complete (.object (before.reverse ++ (name, value) :: members))) stack rest := by
  induction members generalizing name value before with
  | nil => simp [memberTokens, readFrom, take, afterValue]
  | cons next members ih =>
      have first := each next List.mem_cons_self
      have others := ih fun member listed => each member (List.mem_cons_of_mem _ listed)
      rw [memberTokens]
      simp only [List.cons_append, List.append_assoc, readFrom, take, afterValue, if_true]
      rw [first, others]
      simp

/-- The first element of an array is no closing bracket. -/
theorem Plain.readFrom_first {value : Json} (plain : Plain value) (stack : List Frame)
    (rest : List Token) : readFrom .elementOrEnd stack (tokens value ++ rest) =
      readFrom .value (.array [] :: stack) (tokens value ++ rest) := by
  have starts {first : Token} {more : List Token} (other : first ≠ .mark ']') :
      readFrom .elementOrEnd stack (first :: more) =
        readFrom .value (.array [] :: stack) (first :: more) := by
    simp only [readFrom, take, if_neg other]
  cases plain with
  | null => exact starts (by decide)
  | bool value => cases value <;> exact starts (by decide)
  | text => exact starts (by simp)
  | @array elements _ => cases elements <;> exact starts (by decide)
  | @object members _ _ => cases members <;> exact starts (by decide)

theorem Plain.assembles {value : Json} (plain : Plain value) : Assembles value := by
  induction plain with
  | null =>
      intro stack rest
      rfl
  | bool value =>
      intro stack rest
      cases value <;> rfl
  | text _ =>
      intro stack rest
      rfl
  | @array elements plains each =>
      intro stack rest
      cases elements with
      | nil => rfl
      | cons value elements =>
          have others := readFrom_elementTokens fun value member =>
            each value (List.mem_cons_of_mem _ member)
          have opened (more : List Token) :
              readFrom .value stack (.mark '[' :: more) = readFrom .elementOrEnd stack more := rfl
          rw [tokens]
          simp only [List.cons_append, List.nil_append, List.append_assoc]
          rw [opened, (plains value List.mem_cons_self).readFrom_first,
            each value List.mem_cons_self, others]
          rfl
  | @object members _ _ each =>
      intro stack rest
      cases members with
      | nil => rfl
      | cons member members =>
          have others := readFrom_memberTokens fun member listed =>
            each member (List.mem_cons_of_mem _ listed)
          have opened (more : List Token) :
              readFrom .value stack (.mark '\x7b' :: .text member.1 :: .mark ':' :: more) =
                readFrom .value (.object [] member.1 :: stack) more := rfl
          rw [tokens]
          simp only [List.cons_append, List.nil_append, List.append_assoc]
          rw [opened, each member List.mem_cons_self, others]
          rfl

/-- A written value is read back. -/
theorem Plain.read?_toText {value : Json} (plain : Plain value) :
    read? value.toText.toList = some value := by
  have lexed : lex value.toText.toList = some (tokens value) := by
    have ends : Ends [] := nofun
    simpa [lex, toText, lexFrom, finish] using plain.lexes 0 ends
  rw [read?, lexed, Option.bind_some]
  simpa [readFrom] using plain.assembles [] []

end ModuleTyping.Json
