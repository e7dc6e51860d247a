import ModuleTyping.Proofs.Ty.Shapes
import ModuleTyping.Ty.Text

/-!
# Types that are written as they are read

Where the text of a type cannot tell what the type was, it may still be read as a type with
the same text: a declared type as one known by its name, a type named like a type parameter
as a variable, an application of something called `Map` as a map. `Ty.Legible` says that the
text can be read at all. What is read then is written the same way (`Legible.readsAlike`).
-/

namespace ModuleTyping

namespace Ty

open TypeText

/-- The name of a type that is written by its name alone. -/
def declaredName? : Ty → Option String
  | primitive name => some name
  | abstract name => some name
  | record name _ => some name
  | sum name _ => some name
  | var name _ => some name
  | _ => none

/-- A type that is written by its name. -/
theorem written_by_name {ty : Ty} {name : String} (named : ty.declaredName? = some name) :
    ty.text = name ∧ ty.name = name ∧ ty.isFunction = false := by
  cases ty with
  | primitive | abstract | record | sum | var =>
      cases named
      exact ⟨by rw [Ty.text], rfl, rfl⟩
  | _ => cases named

/-- The text of the type ends with a pair of brackets. -/
def EndsInBrackets (ty : Ty) : Prop :=
  ['[', ']'] <:+ ty.text.toList

instance (ty : Ty) : Decidable ty.EndsInBrackets :=
  inferInstanceAs (Decidable (['[', ']'] <:+ ty.text.toList))

/-- The types whose text can be read: names are well formed, an application has arguments,
and a reference does not end with brackets, which would be read as those of an array of
references. -/
inductive Legible : Ty → Prop where
  | named {ty : Ty} {name : String} (called : ty.declaredName? = some name)
      (wellFormed : isTypeName name.toList = true) : Legible ty
  | array {element : Ty} (elements : Legible element) : Legible (.array element)
  | function {params : List Ty} {result : Ty} (each : ∀ param ∈ params, Legible param)
      (returned : Legible result) : Legible (.function params result)
  | generic {base : Ty} {args : List Ty} (applied : args ≠ [])
      (wellFormed : isTypeName base.name.toList = true) (each : ∀ arg ∈ args, Legible arg) :
      Legible (.generic base args)
  | ref {referent : Ty} (referents : Legible referent)
      (unambiguous : ¬ referent.EndsInBrackets) : Legible (.ref referent)
  | mutRef {referent : Ty} (referents : Legible referent)
      (unambiguous : ¬ referent.EndsInBrackets) : Legible (.mutRef referent)
  | map {key value : Ty} (keys : Legible key) (values : Legible value) :
      Legible (.map key value)
  | unit : Legible .unit

/-- The types whose text is one of the grammar, whatever it is read as: names are well formed,
and an application has arguments. -/
inductive Writable : Ty → Prop where
  | named {ty : Ty} {name : String} (called : ty.declaredName? = some name)
      (wellFormed : isTypeName name.toList = true) : Writable ty
  | array {element : Ty} (elements : Writable element) : Writable (.array element)
  | function {params : List Ty} {result : Ty} (each : ∀ param ∈ params, Writable param)
      (returned : Writable result) : Writable (.function params result)
  | generic {base : Ty} {args : List Ty} (applied : args ≠ [])
      (wellFormed : isTypeName base.name.toList = true) (each : ∀ arg ∈ args, Writable arg) :
      Writable (.generic base args)
  | ref {referent : Ty} (referents : Writable referent) : Writable (.ref referent)
  | mutRef {referent : Ty} (referents : Writable referent) : Writable (.mutRef referent)
  | map {key value : Ty} (keys : Writable key) (values : Writable value) :
      Writable (.map key value)
  | unit : Writable .unit

theorem Legible.writable {ty : Ty} (legible : Legible ty) : Writable ty := by
  induction legible with
  | named called wellFormed => exact .named called wellFormed
  | array _ elements => exact .array elements
  | function _ _ each returned => exact .function each returned
  | generic applied wellFormed _ each => exact .generic applied wellFormed each
  | ref _ _ referents => exact .ref referents
  | mutRef _ _ referents => exact .mutRef referents
  | map _ _ keys values => exact .map keys values
  | unit => exact .unit

mutual

/-- Decides whether the text of a type can be read. -/
def isLegible : Ty → Bool
  | array element => element.isLegible
  | function params result => allLegible params && result.isLegible
  | generic base args => !args.isEmpty && isTypeName base.name.toList && allLegible args
  | ref referent => referent.isLegible && !decide referent.EndsInBrackets
  | mutRef referent => referent.isLegible && !decide referent.EndsInBrackets
  | map key value => key.isLegible && value.isLegible
  | unit => true
  | primitive name => isTypeName name.toList
  | abstract name => isTypeName name.toList
  | record name _ => isTypeName name.toList
  | sum name _ => isTypeName name.toList
  | var name _ => isTypeName name.toList

/-- Decides whether the texts of all the types can be read. -/
def allLegible : List Ty → Bool
  | [] => true
  | ty :: tys => ty.isLegible && allLegible tys

end

mutual

theorem legible_of_isLegible : (ty : Ty) → ty.isLegible = true → ty.Legible
  | array element, checked => by
      rw [isLegible] at checked
      exact .array (legible_of_isLegible element checked)
  | function params result, checked => by
      rw [isLegible, Bool.and_eq_true] at checked
      exact .function (legible_of_allLegible params checked.1)
        (legible_of_isLegible result checked.2)
  | generic base args, checked => by
      rw [isLegible, Bool.and_eq_true, Bool.and_eq_true] at checked
      exact .generic (by simpa using checked.1.1) checked.1.2
        (legible_of_allLegible args checked.2)
  | ref referent, checked => by
      rw [isLegible, Bool.and_eq_true] at checked
      exact .ref (legible_of_isLegible referent checked.1) (by simpa using checked.2)
  | mutRef referent, checked => by
      rw [isLegible, Bool.and_eq_true] at checked
      exact .mutRef (legible_of_isLegible referent checked.1) (by simpa using checked.2)
  | map key value, checked => by
      rw [isLegible, Bool.and_eq_true] at checked
      exact .map (legible_of_isLegible key checked.1) (legible_of_isLegible value checked.2)
  | unit, _ => .unit
  | primitive name, checked => .named rfl (by rwa [isLegible] at checked)
  | abstract name, checked => .named rfl (by rwa [isLegible] at checked)
  | record name _, checked => .named rfl (by rwa [isLegible] at checked)
  | sum name _, checked => .named rfl (by rwa [isLegible] at checked)
  | var name _, checked => .named rfl (by rwa [isLegible] at checked)

theorem legible_of_allLegible :
    (tys : List Ty) → allLegible tys = true → ∀ ty ∈ tys, ty.Legible
  | [], _ => nofun
  | ty :: tys, checked => by
      rw [allLegible, Bool.and_eq_true] at checked
      exact List.forall_mem_cons.mpr
        ⟨legible_of_isLegible ty checked.1, legible_of_allLegible tys checked.2⟩

end

theorem allLegible_of_forall {tys : List Ty} (each : ∀ ty ∈ tys, ty.isLegible = true) :
    allLegible tys = true := by
  induction tys with
  | nil => rfl
  | cons ty tys ih =>
      rw [allLegible, each ty List.mem_cons_self,
        ih fun ty member => each ty (List.mem_cons_of_mem _ member)]
      rfl

theorem isLegible_iff {ty : Ty} : ty.isLegible = true ↔ ty.Legible := by
  refine ⟨legible_of_isLegible ty, fun legible => ?_⟩
  induction legible with
  | @named ty name called wellFormed =>
      cases ty <;> cases called <;> (rw [isLegible]; exact wellFormed)
  | array _ ih => rwa [isLegible]
  | function _ _ params result => rw [isLegible, allLegible_of_forall params, result]; rfl
  | generic applied wellFormed _ args =>
      have some_argument := List.isEmpty_eq_false_iff.mpr applied
      rw [isLegible, some_argument, wellFormed, allLegible_of_forall args]
      rfl
  | ref _ unambiguous ih => rw [isLegible, ih, decide_eq_false unambiguous]; rfl
  | mutRef _ unambiguous ih => rw [isLegible, ih, decide_eq_false unambiguous]; rfl
  | map _ _ key value => rw [isLegible, key, value]; rfl
  | unit => rfl

instance (ty : Ty) : Decidable ty.Legible :=
  decidable_of_iff _ isLegible_iff

/-! ### Written types are derivable -/

theorem toList_text_function (params : List Ty) (result : Ty) :
    (function params result).text.toList =
      '(' :: ((textAll params).toList ++ ')' :: ([' '] ++ '-' :: '>' :: ([' '] ++
        result.text.toList))) := by
  simp [text]

theorem toList_text_generic (base : Ty) (args : List Ty) :
    (generic base args).text.toList =
      base.name.toList ++ '<' :: ((textAll args).toList ++ ['>']) := by
  simp [text]

theorem toList_text_map (key value : Ty) : (map key value).text.toList =
    "Map".toList ++ '<' :: ((textAll [key, value]).toList ++ ['>']) := by
  simp [text, textAll, textMore]

theorem toList_text_array {element : Ty} (h : element.isFunction = false) :
    (array element).text.toList = element.text.toList ++ ['[', ']'] := by
  simp [text, h]

theorem toList_text_array_function {element : Ty} (h : element.isFunction = true) :
    (array element).text.toList = '(' :: (element.text.toList ++ [')']) ++ ['[', ']'] := by
  simp [text, h]

theorem toList_text_ref (referent : Ty) :
    (ref referent).text.toList = '&' :: referent.text.toList := by
  simp [text]

theorem toList_text_mutRef (referent : Ty) :
    (mutRef referent).text.toList =
      '&' :: 'm' :: 'u' :: 't' :: ' ' :: referent.text.toList := by
  simp [text]

/-- The types of a list are written with a comma and a space between them. -/
theorem listed_textAll (tys : List Ty) :
    Listed .compact (tys.map fun ty => ty.text.toList) (textAll tys).toList := by
  cases tys with
  | nil => exact .none
  | cons first rest =>
      induction rest generalizing first with
      | nil => simpa [textAll, textMore] using Listed.one first.text.toList
      | cons next rest ih =>
          have spaced : Listed .compact _
              (first.text.toList ++ ([] ++ ',' :: ([' '] ++ (textAll (next :: rest)).toList))) :=
            .more first.text.toList rfl (by simp [Gaps.compact]) (ih next)
          simpa [textAll, textMore] using spaced

theorem derives_of_each {args : List Ty}
    (each : ∀ arg ∈ args, Derives .compact arg.text.toList) :
    ∀ text ∈ args.map fun ty => ty.text.toList, Derives .compact text := by
  intro text mem
  obtain ⟨arg, hm, rfl⟩ := List.mem_map.mp mem
  exact each arg hm

/-- The text of a writable type is derived by the compact grammar. -/
theorem Writable.derives {ty : Ty} (writable : Writable ty) :
    Derives .compact ty.text.toList := by
  induction writable with
  | named called wellFormed =>
      rw [(written_by_name called).1]
      exact .name wellFormed
  | @array element _ elements =>
      by_cases function : element.isFunction = true
      · rw [toList_text_array_function function]
        exact elements.compact_enclosed.compact_array
      · rw [toList_text_array (by simpa using function)]
        exact elements.compact_array
  | @function params result _ _ each returned =>
      rw [toList_text_function]
      exact .compact_function (derives_of_each each) (listed_textAll params) returned
        (by simp) (by simp)
  | generic applied wellFormed _ each =>
      rw [toList_text_generic]
      exact .compact_application wellFormed (by simpa using applied) (derives_of_each each)
        (listed_textAll _)
  | ref _ referents =>
      rw [toList_text_ref]
      exact referents.compact_ref
  | mutRef _ referents =>
      rw [toList_text_mutRef]
      exact referents.compact_mutRef
  | @map key value _ _ keys values =>
      rw [toList_text_map]
      refine .compact_application (by decide) (by simp) (derives_of_each ?_)
        (listed_textAll [key, value])
      simpa using ⟨keys, values⟩
  | unit => exact .name (by decide)

/-- Brackets can be put behind the text of any type but a function type. -/
theorem Writable.operand {ty : Ty} (writable : Writable ty) (other : ty.isFunction = false) :
    Operand ty.text.toList := by
  induction writable with
  | named called wellFormed =>
      rw [(written_by_name called).1]
      simpa using operand_of_isTypeName wellFormed []
  | @array element elements ih =>
      by_cases function : element.isFunction = true
      · rw [toList_text_array_function function]
        exact .inr ⟨element.text.toList, 1, elements.derives.balanced.mono (Nat.zero_le 1),
          by simp [brackets]⟩
      · have other : element.isFunction = false := by simpa using function
        rw [toList_text_array other]
        exact (ih other).append elements.derives.tight.ne_nil
  | function => cases other
  | generic _ wellFormed =>
      rw [toList_text_generic]
      exact operand_of_isTypeName wellFormed _
  | ref => exact .inl (by simp [text])
  | mutRef => exact .inl (by simp [text])
  | map =>
      rw [toList_text_map]
      exact operand_of_isTypeName (by decide) _
  | unit => exact .inl (by decide)

theorem Legible.derives {ty : Ty} (legible : Legible ty) : Derives .compact ty.text.toList :=
  legible.writable.derives

theorem Legible.operand {ty : Ty} (legible : Legible ty) (other : ty.isFunction = false) :
    Operand ty.text.toList :=
  legible.writable.operand other

/-! ### Reading a type part by part -/

section

variable {typeParams : List String}

/-- An array is read as an array of what its element is read as. -/
theorem Writable.read_text_array {element ty : Ty} (elements : Writable element)
    (reads : read typeParams element.text.toList = .ok ty) :
    read typeParams (Ty.array element).text.toList = .ok (.array ty) := by
  by_cases function : element.isFunction = true
  · rw [toList_text_array_function function]
    refine read_array elements.derives.compact_enclosed ?_ (read_enclosed elements.derives reads)
    exact .inr ⟨element.text.toList, 0, elements.derives.balanced.mono (Nat.zero_le 1), rfl⟩
  · have other : element.isFunction = false := by simpa using function
    rw [toList_text_array other]
    exact read_array elements.derives (elements.operand other) reads

/-- A function is read as a function from and to what its parts are read as. -/
theorem Writable.read_text_function {params tys : List Ty} {result ty : Ty}
    (each : ∀ param ∈ params, Writable param) (returned : Writable result)
    (readParams : List.Forall₂ (fun text ty => read typeParams text = .ok ty)
      (params.map fun ty => ty.text.toList) tys)
    (readResult : read typeParams result.text.toList = .ok ty) :
    read typeParams (Ty.function params result).text.toList = .ok (.function tys ty) := by
  rw [toList_text_function]
  exact read_function (derives_of_each fun param mem => (each param mem).derives)
    (listed_textAll params) returned.derives (by simp) (by simp) readParams readResult

end

/-! ### Legible types are read -/

theorem textAll_congr {tys others : List Ty}
    (each : List.Forall₂ (fun ty other => ty.text = other.text) tys others) :
    textAll tys = textAll others := by
  have more {tys others : List Ty}
      (each : List.Forall₂ (fun ty other => ty.text = other.text) tys others) :
      textMore tys = textMore others := by
    induction each with
    | nil => rfl
    | cons first _ ih => rw [textMore, textMore, first, ih]
  cases each with
  | nil => rfl
  | cons first rest => rw [textAll, textAll, first, more rest]

theorem text_ofApplication (base : String) (args : List Ty) :
    (ofApplication base args).text = base ++ "<" ++ textAll args ++ ">" := by
  unfold ofApplication
  split
  · simp [text, textAll, textMore, String.append_assoc]
  · rw [text, name]

theorem ofApplication_of_not_map {base : String} {args : List Ty}
    (notMap : ¬ (base = "Map" ∧ args.length = 2)) :
    ofApplication base args = .generic (.primitive base) args := by
  unfold ofApplication
  split
  · exact absurd ⟨rfl, rfl⟩ notMap
  · rfl

/-- The two types stand the same way in texts. -/
structure WrittenAs (ty other : Ty) : Prop where
  text : ty.text = other.text
  isFunction : ty.isFunction = other.isFunction

/-- The text of the type is read as a type with that text. -/
def ReadsAlike (typeParams : List String) (ty : Ty) : Prop :=
  ∃ ty', read typeParams ty.text.toList = .ok ty' ∧ WrittenAs ty' ty

theorem ReadsAlike.each {typeParams : List String} {tys : List Ty}
    (each : ∀ ty ∈ tys, ReadsAlike typeParams ty) :
    ∃ tys', List.Forall₂ (fun text ty' => read typeParams text = .ok ty')
        (tys.map fun ty => ty.text.toList) tys' ∧ textAll tys' = textAll tys := by
  have listed : ∃ tys', List.Forall₂ (fun text ty' => read typeParams text = .ok ty')
      (tys.map fun ty => ty.text.toList) tys' ∧
        List.Forall₂ (fun ty' ty => ty'.text = ty.text) tys' tys := by
    induction tys with
    | nil => exact ⟨[], .nil, .nil⟩
    | cons ty tys ih =>
        obtain ⟨ty', first, written⟩ := each ty List.mem_cons_self
        obtain ⟨tys', rest, others⟩ := ih fun ty member => each ty (List.mem_cons_of_mem _ member)
        exact ⟨ty' :: tys', .cons first rest, .cons written.text others⟩
  obtain ⟨tys', readEach, written⟩ := listed
  exact ⟨tys', readEach, textAll_congr written⟩

/-- A name is read as a type that is written by it. -/
theorem readsAlike_name {name : String} (wellFormed : isTypeName name.toList = true)
    (typeParams : List String) :
    ∃ ty, read typeParams name.toList = .ok ty ∧ ty.text = name ∧ ty.isFunction = false := by
  have reads {ty : Ty} (known : ofName? typeParams name.toList = some ty) :
      read typeParams name.toList = .ok ty := read_name wellFormed known
  unfold ofName? at reads
  rw [String.ofList_toList] at reads
  by_cases unit : name = "unit"
  · exact ⟨.unit, reads (by rw [if_pos unit]), by rw [text, unit], rfl⟩
  · by_cases param : name ∈ typeParams
    · exact ⟨.var name none, reads (by rw [if_neg unit, if_pos param]), by rw [text], rfl⟩
    · refine ⟨.primitive name, reads ?_, by rw [text], rfl⟩
      rw [if_neg unit, if_neg param, if_pos wellFormed]

/-- The text of a legible type is read as a type with that text. -/
theorem Legible.readsAlike {ty : Ty} (legible : Legible ty) (typeParams : List String) :
    ReadsAlike typeParams ty := by
  induction legible with
  | named called wellFormed =>
      obtain ⟨written, -, plain⟩ := written_by_name called
      obtain ⟨ty', reads, text, isFunction⟩ := readsAlike_name wellFormed typeParams
      exact ⟨ty', by rw [written, reads], by rw [text, written], by rw [isFunction, plain]⟩
  | array elements ih =>
      obtain ⟨element', reads, written⟩ := ih
      refine ⟨.array element', elements.writable.read_text_array reads, ?_, rfl⟩
      rw [text, text, written.isFunction, written.text]
  | function each returned eachRead resultRead =>
      obtain ⟨params', readParams, written⟩ := ReadsAlike.each eachRead
      obtain ⟨result', readResult, writtenResult⟩ := resultRead
      refine ⟨.function params' result', ?_, ?_, rfl⟩
      · exact Writable.read_text_function (fun param mem => (each param mem).writable)
          returned.writable readParams readResult
      · rw [text, text, written, writtenResult.text]
  | @generic base args applied wellFormed each eachRead =>
      obtain ⟨args', readArgs, written⟩ := ReadsAlike.each eachRead
      refine ⟨ofApplication base.name args', ?_, ?_, ?_⟩
      · rw [toList_text_generic, read_application wellFormed (by simpa using applied)
          (derives_of_each fun arg mem => (each arg mem).derives) (listed_textAll args) readArgs,
          String.ofList_toList]
      · rw [text_ofApplication, text, written]
      · unfold ofApplication
        split <;> rfl
  | ref referents unambiguous ih =>
      obtain ⟨referent', reads, written⟩ := ih
      refine ⟨.ref referent', ?_, ?_, rfl⟩
      · rw [toList_text_ref]
        exact read_ref referents.derives unambiguous reads
      · rw [text, text, written.text]
  | mutRef referents unambiguous ih =>
      obtain ⟨referent', reads, written⟩ := ih
      refine ⟨.mutRef referent', ?_, ?_, rfl⟩
      · rw [toList_text_mutRef]
        exact read_mutRef referents.derives unambiguous reads
      · rw [text, text, written.text]
  | @map key value keys values keyRead valueRead =>
      have each : ∀ ty ∈ [key, value], Legible ty := by
        simpa using ⟨keys, values⟩
      have eachRead : ∀ ty ∈ [key, value], ReadsAlike typeParams ty := by
        simpa using ⟨keyRead, valueRead⟩
      obtain ⟨args', readArgs, written⟩ := ReadsAlike.each eachRead
      refine ⟨ofApplication "Map" args', ?_, ?_, ?_⟩
      · rw [toList_text_map]
        exact read_application (by decide) (by simp)
          (derives_of_each fun ty mem => (each ty mem).derives) (listed_textAll [key, value])
          readArgs
      · rw [text_ofApplication, written]
        simp [text, textAll, textMore, String.append_assoc]
      · unfold ofApplication
        split <;> rfl
  | unit => exact ⟨.unit, read_name (by decide) (by simp [ofName?, text]), rfl, rfl⟩

end Ty

end ModuleTyping
