import ModuleTyping.Proofs.Ty.Legible

/-!
# Reading what was written

Writing a type and reading the text gives the type back as far as the text can tell:
declared types come back as names (`Ty.byName`). That holds for every type the text
does not make ambiguous (`Ty.Printable`), however its shapes are nested.

Printed types are texts of the compact grammar, so what is known of those texts settles
where the reader cuts them. The proof then follows the type, one case for each shape.
-/

namespace ModuleTyping

namespace Ty

open TypeText

mutual

/-- The type as its text tells it: declared types and the bases of applications are
known by their names alone, and variables have no constraint. -/
def byName : Ty → Ty
  | primitive name => primitive name
  | abstract name => primitive name
  | record name _ => primitive name
  | sum name _ => primitive name
  | var name _ => var name none
  | array element => array element.byName
  | function params result => function (byNameAll params) result.byName
  | generic base args => generic (primitive base.name) (byNameAll args)
  | ref referent => ref referent.byName
  | mutRef referent => mutRef referent.byName
  | map key value => map key.byName value.byName
  | unit => unit

/-- The types of a list as their texts tell them. -/
def byNameAll : List Ty → List Ty
  | [] => []
  | ty :: rest => ty.byName :: byNameAll rest

end

theorem byNameAll_eq_map (tys : List Ty) : byNameAll tys = tys.map byName := by
  induction tys with
  | nil => rfl
  | cons ty rest ih => rw [byNameAll, ih, List.map_cons]

/-- A name that is read as the type of that name. -/
structure ReadsAsName (typeParams : List String) (name : String) : Prop where
  wellFormed : isTypeName name.toList = true
  notUnit : name ≠ "unit"
  notParam : name ∉ typeParams

/-- The types whose text says what they are. Two applications are left out because their
text is that of a map or of no type at all, and a reference must not end with brackets,
which would be read as those of an array of references. -/
inductive Printable (typeParams : List String) : Ty → Prop where
  | primitive {name : String} (own : ReadsAsName typeParams name) :
      Printable typeParams (.primitive name)
  | abstract {name : String} (own : ReadsAsName typeParams name) :
      Printable typeParams (.abstract name)
  | record {name : String} {fields : List (String × Ty)}
      (own : ReadsAsName typeParams name) : Printable typeParams (.record name fields)
  | sum {name : String} {variants : List (String × List Ty)}
      (own : ReadsAsName typeParams name) : Printable typeParams (.sum name variants)
  | var {name : String} {constraint : Option String} (declared : name ∈ typeParams)
      (wellFormed : isTypeName name.toList = true) (notUnit : name ≠ "unit") :
      Printable typeParams (.var name constraint)
  | array {element : Ty} (elements : Printable typeParams element) :
      Printable typeParams (.array element)
  | function {params : List Ty} {result : Ty}
      (each : ∀ param ∈ params, Printable typeParams param)
      (returned : Printable typeParams result) : Printable typeParams (.function params result)
  | generic {base : Ty} {args : List Ty} (applied : args ≠ [])
      (wellFormed : isTypeName base.name.toList = true)
      (notMap : ¬ (base.name = "Map" ∧ args.length = 2))
      (each : ∀ arg ∈ args, Printable typeParams arg) :
      Printable typeParams (.generic base args)
  | ref {referent : Ty} (referents : Printable typeParams referent)
      (unambiguous : ¬ referent.EndsInBrackets) : Printable typeParams (.ref referent)
  | mutRef {referent : Ty} (referents : Printable typeParams referent)
      (unambiguous : ¬ referent.EndsInBrackets) : Printable typeParams (.mutRef referent)
  | map {key value : Ty} (keys : Printable typeParams key)
      (values : Printable typeParams value) : Printable typeParams (.map key value)
  | unit : Printable typeParams .unit

/-- What says what it is can be read. -/
theorem Printable.legible {typeParams : List String} {ty : Ty}
    (h : Printable typeParams ty) : Legible ty := by
  induction h with
  | primitive own => exact .named rfl own.wellFormed
  | abstract own => exact .named rfl own.wellFormed
  | record own => exact .named rfl own.wellFormed
  | sum own => exact .named rfl own.wellFormed
  | var _ wellFormed _ => exact .named rfl wellFormed
  | array _ elements => exact .array elements
  | function _ _ each returned => exact .function each returned
  | generic applied wellFormed _ _ each => exact .generic applied wellFormed each
  | ref _ unambiguous referents => exact .ref referents unambiguous
  | mutRef _ unambiguous referents => exact .mutRef referents unambiguous
  | map _ _ keys values => exact .map keys values
  | unit => exact .unit

theorem Printable.derives {typeParams : List String} {ty : Ty}
    (h : Printable typeParams ty) : Derives .compact ty.text.toList :=
  h.legible.derives

theorem Printable.operand {typeParams : List String} {ty : Ty}
    (h : Printable typeParams ty) (other : ty.isFunction = false) :
    Operand ty.text.toList :=
  h.legible.operand other

/-! ## Written types are read back -/

theorem ofName?_of_readsAsName {typeParams : List String} {name : String}
    (own : ReadsAsName typeParams name) :
    ofName? typeParams name.toList = some (.primitive name) := by
  simp [ofName?, own.notUnit, own.notParam, own.wellFormed]

theorem forall₂_read_texts {typeParams : List String} {tys : List Ty}
    (each : ∀ ty ∈ tys, read typeParams ty.text.toList = .ok ty.byName) :
    List.Forall₂ (fun text ty => read typeParams text = .ok ty)
      (tys.map fun ty => ty.text.toList) (byNameAll tys) := by
  rw [byNameAll_eq_map, List.forall₂_map_left_iff, List.forall₂_map_right_iff,
    List.forall₂_same]
  exact each

/-- Reading the text of a printable type succeeds and gives the type by name. -/
theorem read_text {typeParams : List String} {ty : Ty} (h : Printable typeParams ty) :
    read typeParams ty.text.toList = .ok ty.byName := by
  induction h with
  | primitive own => exact read_name own.wellFormed (ofName?_of_readsAsName own)
  | abstract own => exact read_name own.wellFormed (ofName?_of_readsAsName own)
  | record own => exact read_name own.wellFormed (ofName?_of_readsAsName own)
  | sum own => exact read_name own.wellFormed (ofName?_of_readsAsName own)
  | var declared wellFormed notUnit =>
      apply read_name wellFormed
      simp [ofName?, notUnit, declared, byName]
  | @array element elements ih =>
      by_cases function : element.isFunction = true
      · rw [toList_text_array_function function]
        -- the parentheses are read as a text of their own before the brackets are taken off
        refine read_array elements.derives.compact_enclosed ?_
          (read_enclosed elements.derives ih)
        exact .inr ⟨element.text.toList, 0, elements.derives.balanced.mono (Nat.zero_le 1), rfl⟩
      · have other : element.isFunction = false := by simpa using function
        rw [toList_text_array other]
        exact read_array elements.derives (elements.operand other) ih
  | @function params result each returned eachRead resultRead =>
      rw [toList_text_function]
      exact read_function (derives_of_each fun param mem => (each param mem).derives)
        (listed_textAll params) returned.derives (by simp) (by simp)
        (forall₂_read_texts eachRead) resultRead
  | @generic base args applied wellFormed notMap each eachRead =>
      rw [toList_text_generic, read_application wellFormed (by simpa using applied)
        (derives_of_each fun arg mem => (each arg mem).derives) (listed_textAll args)
        (forall₂_read_texts eachRead), String.ofList_toList, ofApplication_of_not_map]
      · rfl
      · rwa [byNameAll_eq_map, List.length_map]
  | ref referents unambiguous ih =>
      rw [toList_text_ref]
      exact read_ref referents.derives unambiguous ih
  | mutRef referents unambiguous ih =>
      rw [toList_text_mutRef]
      exact read_mutRef referents.derives unambiguous ih
  | @map key value keys values keyRead valueRead =>
      have each : ∀ ty ∈ [key, value], Printable typeParams ty := by
        simpa using ⟨keys, values⟩
      have eachRead : ∀ ty ∈ [key, value], read typeParams ty.text.toList = .ok ty.byName := by
        simpa using ⟨keyRead, valueRead⟩
      rw [toList_text_map]
      exact read_application (by decide) (by simp)
        (derives_of_each fun ty mem => (each ty mem).derives) (listed_textAll [key, value])
        (forall₂_read_texts eachRead)
  | unit => exact read_name (by decide) (by simp [ofName?, text, byName])

/-- A function over an array of functions and a map to references comes back whole: its
record, sum and hidden type as names, and its variable without the constraint. -/
theorem read_text_nested :
    let ty : Ty := .function
      [.array (.function [.var "T" (some "Numeric")] (.record "Point" [("x", f32)])),
        .map (.abstract "Key") (.ref (.generic (.sum "Option" [("None", [])]) [.unit]))]
      (.mutRef (.var "T" none))
    Printable ["T"] ty ∧
      ty.text = "(((T) -> Point)[], Map<Key, &Option<unit>>) -> &mut T" ∧
      read ["T"] ty.text.toList = .ok (.function
        [.array (.function [.var "T" none] (.primitive "Point")),
          .map (.primitive "Key") (.ref (.generic (.primitive "Option") [.unit]))]
        (.mutRef (.var "T" none))) := by
  intro ty
  have printable : Printable ["T"] ty := by
    refine .function ?_ (.mutRef (.var (by decide) (by decide) (by decide)) (by decide))
    simp only [List.mem_cons, List.not_mem_nil, or_false, forall_eq_or_imp, forall_eq]
    refine ⟨.array (.function ?_ (.record ⟨by decide, by decide, by decide⟩)),
      .map (.abstract ⟨by decide, by decide, by decide⟩) (.ref (.generic ?_ ?_ ?_ ?_) ?_)⟩
    · simpa using .var (by decide) (by decide) (by decide)
    · decide
    · decide
    · decide
    · simpa using .unit
    · decide
  exact ⟨printable, by decide, read_text printable⟩

end Ty

end ModuleTyping
