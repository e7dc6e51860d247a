import ModuleTyping.Proofs.Ty.Legible
import ModuleTyping.Proofs.Ty.Recognition

/-!
# Reading again what was read

A text may group types by parentheses that the type does not keep. Writing the type puts
them back around a function in an array, where the brackets would otherwise go to its
result, but not around the referent of a reference: `&(i32[])` is written `&i32[]`, which is
an array of references. So writing and reading again always gives some type, and it gives
the same type exactly where no reference is written with brackets at its end.

`ReadAs` says what types reading gives, following the reader. The main lemma is by induction
on it (`ReadAs.rereads`).
-/

namespace ModuleTyping

namespace Ty

open TypeText

mutual

/-- What the references in the type refer to, at any depth. -/
def referents : Ty → List Ty
  | ref referent => referent :: referent.referents
  | mutRef referent => referent :: referent.referents
  | array element => element.referents
  | function params result => referentsAll params ++ result.referents
  | generic _ args => referentsAll args
  | map key value => key.referents ++ value.referents
  | _ => []

/-- What the references in the types refer to. -/
def referentsAll : List Ty → List Ty
  | [] => []
  | ty :: rest => ty.referents ++ referentsAll rest

end

/-- No reference in the type is written with brackets at its end. -/
def Unambiguous (ty : Ty) : Prop :=
  ∀ referent ∈ ty.referents, ¬ referent.EndsInBrackets

namespace Unambiguous

theorem all_iff {tys : List Ty} : (∀ referent ∈ referentsAll tys, ¬ referent.EndsInBrackets) ↔
    ∀ ty ∈ tys, ty.Unambiguous := by
  induction tys with
  | nil => simp [referentsAll]
  | cons ty tys ih =>
      rw [referentsAll, List.forall_mem_append, List.forall_mem_cons, ih]
      rfl

theorem array_iff {element : Ty} : (array element).Unambiguous ↔ element.Unambiguous := by
  rw [Unambiguous, referents]
  rfl

theorem function_iff {params : List Ty} {result : Ty} : (function params result).Unambiguous ↔
    (∀ param ∈ params, param.Unambiguous) ∧ result.Unambiguous := by
  rw [Unambiguous, referents, List.forall_mem_append, all_iff]
  rfl

theorem ref_iff {referent : Ty} :
    (ref referent).Unambiguous ↔ ¬ referent.EndsInBrackets ∧ referent.Unambiguous := by
  rw [Unambiguous, referents, List.forall_mem_cons]
  rfl

theorem mutRef_iff {referent : Ty} :
    (mutRef referent).Unambiguous ↔ ¬ referent.EndsInBrackets ∧ referent.Unambiguous := by
  rw [Unambiguous, referents, List.forall_mem_cons]
  rfl

theorem ofApplication_iff {base : String} {args : List Ty} :
    (ofApplication base args).Unambiguous ↔ ∀ arg ∈ args, arg.Unambiguous := by
  rw [← all_iff]
  unfold ofApplication
  split
  · simp [Unambiguous, referents, referentsAll]
  · rw [Unambiguous, referents]

end Unambiguous

/-! ### What reading gives -/

/-- The types that reading gives, one constructor for each shape of texts but the enclosed
ones, which leave no trace. -/
inductive ReadAs (typeParams : List String) : Ty → Prop where
  | name {name : String} {ty : Ty} (wellFormed : isTypeName name.toList = true)
      (known : ofName? typeParams name.toList = some ty) : ReadAs typeParams ty
  | array {element : Ty} (elements : ReadAs typeParams element) :
      ReadAs typeParams (.array element)
  | function {params : List Ty} {result : Ty} (each : ∀ param ∈ params, ReadAs typeParams param)
      (returned : ReadAs typeParams result) : ReadAs typeParams (.function params result)
  | application {base : String} {args : List Ty} (wellFormed : isTypeName base.toList = true)
      (applied : args ≠ []) (each : ∀ arg ∈ args, ReadAs typeParams arg) :
      ReadAs typeParams (ofApplication base args)
  | ref {referent : Ty} (referents : ReadAs typeParams referent) :
      ReadAs typeParams (.ref referent)
  | mutRef {referent : Ty} (referents : ReadAs typeParams referent) :
      ReadAs typeParams (.mutRef referent)

variable {typeParams : List String}

theorem readAs_of_read {text : List Char} {ty : Ty}
    (named : ∀ param ∈ typeParams, isTypeName param.toList = true)
    (accepted : read typeParams text = .ok ty) : ReadAs typeParams ty := by
  induction text using induction_on_pieces generalizing ty with
  | whole text piece =>
      have pieces {texts : List (List Char)} {tys : List Ty}
          (members : ∀ text' ∈ texts, text' ∈ (ofText text).pieces)
          (reads : texts.mapM (read typeParams) = .ok tys) : ∀ ty ∈ tys, ReadAs typeParams ty := by
        intro ty member
        obtain ⟨text', listed, reads⟩ := exists_related (mapM_eq_ok_iff.mp reads).flip member
        exact piece text' (members text' listed) reads
      have shaped : Shaped (Text.trim text) (ofText text) := shaped_ofTrimmed (Text.trim text)
      rw [read_eq] at accepted
      generalize ofText text = shape at accepted shaped piece pieces
      cases shape with
      | function params result =>
          obtain ⟨tys, readParams, accepted⟩ := bind_eq_ok_iff.mp accepted
          obtain ⟨result', readResult, accepted⟩ := bind_eq_ok_iff.mp accepted
          cases accepted
          exact .function (pieces (fun _ listed => List.mem_cons_of_mem _ listed) readParams)
            (piece _ List.mem_cons_self readResult)
      | enclosed inside => exact piece _ List.mem_cons_self accepted
      | array element =>
          obtain ⟨element', readElement, accepted⟩ := bind_eq_ok_iff.mp accepted
          cases accepted
          exact .array (piece _ List.mem_cons_self readElement)
      | ref referent =>
          obtain ⟨referent', readReferent, accepted⟩ := bind_eq_ok_iff.mp accepted
          cases accepted
          exact .ref (piece _ List.mem_cons_self readReferent)
      | mutRef referent =>
          obtain ⟨referent', readReferent, accepted⟩ := bind_eq_ok_iff.mp accepted
          cases accepted
          exact .mutRef (piece _ List.mem_cons_self readReferent)
      | application base args =>
          obtain ⟨tys, readArgs, accepted⟩ := bind_eq_ok_iff.mp accepted
          cases accepted
          obtain ⟨_, _, -, wellFormed, -, applied, -⟩ := shaped
          refine .application (by rwa [String.toList_ofList]) ?_
            (pieces (fun _ listed => listed) readArgs)
          rintro rfl
          exact applied (List.forall₂_nil_right_iff.mp (mapM_eq_ok_iff.mp readArgs))
      | name name =>
          cases known : ofName? typeParams name with
          | none => simp [known] at accepted
          | some ty' =>
              obtain rfl : ty' = ty := by simpa [known] using accepted
              rw [← @String.toList_ofList name] at known
              exact .name (isTypeName_of_ofName? named known) known
      | malformed => cases accepted

/-- What a name is read as. -/
theorem ofName?_cases {name : String} {ty : Ty}
    (known : ofName? typeParams name.toList = some ty) :
    ty = .unit ∧ name = "unit" ∨ ty = .var name none ∨ ty = .primitive name := by
  unfold ofName? at known
  rw [String.ofList_toList] at known
  grind

theorem text_of_ofName? {name : String} {ty : Ty}
    (known : ofName? typeParams name.toList = some ty) : ty.text = name := by
  rcases ofName?_cases known with ⟨rfl, rfl⟩ | rfl | rfl <;> rw [text]

theorem ReadAs.writable {ty : Ty} (readAs : ReadAs typeParams ty) : ty.Writable := by
  induction readAs with
  | name wellFormed known =>
      rcases ofName?_cases known with ⟨rfl, -⟩ | rfl | rfl
      · exact .unit
      · exact .named rfl wellFormed
      · exact .named rfl wellFormed
  | array _ elements => exact .array elements
  | function _ _ each returned => exact .function each returned
  | application wellFormed applied _ each =>
      unfold ofApplication
      split
      · exact .map (each _ (by simp)) (each _ (by simp))
      · exact .generic applied wellFormed each
  | ref _ referents => exact .ref referents
  | mutRef _ referents => exact .mutRef referents

/-! ### Reading it again -/

/-- The text of the type can be read, and is read as the same type exactly if the type is
unambiguous. -/
def Rereads (typeParams : List String) (ty : Ty) : Prop :=
  ∃ ty', read typeParams ty.text.toList = .ok ty' ∧ (ty'.same ty = true ↔ ty.Unambiguous)

theorem Rereads.each {tys : List Ty} (each : ∀ ty ∈ tys, Rereads typeParams ty) :
    ∃ tys', List.Forall₂ (fun text ty' => read typeParams text = .ok ty')
        (tys.map fun ty => ty.text.toList) tys' ∧
      (sameAll tys' tys = true ↔ ∀ ty ∈ tys, ty.Unambiguous) := by
  induction tys with
  | nil => exact ⟨[], .nil, by simp [sameAll]⟩
  | cons ty tys ih =>
      obtain ⟨ty', first, same⟩ := each ty List.mem_cons_self
      obtain ⟨tys', rest, sames⟩ := ih fun ty member => each ty (List.mem_cons_of_mem _ member)
      refine ⟨ty' :: tys', .cons first rest, ?_⟩
      rw [sameAll, Bool.and_eq_true, same, sames, List.forall_mem_cons]

theorem same_ofApplication {base : String} {args others : List Ty}
    (length : args.length = others.length) :
    (ofApplication base args).same (ofApplication base others) = sameAll args others := by
  by_cases map : base = "Map" ∧ others.length = 2
  · obtain ⟨rfl, two⟩ := map
    obtain ⟨key, value, rfl⟩ := List.length_eq_two.mp two
    obtain ⟨key', value', rfl⟩ := List.length_eq_two.mp (length.trans two)
    simp [ofApplication, same, sameAll]
  · rw [ofApplication_of_not_map map, ofApplication_of_not_map (length ▸ map), same]
    simp [name]

/-- Brackets at the end of a text that no parenthesis opens are those of an array. -/
theorem reads_array_of_brackets (typeParams : List String) {text : List Char}
    (derived : Derives .compact text) (paren : text.head? ≠ some '(')
    (brackets : ['[', ']'] <:+ text) :
    ∃ element, read typeParams text = .ok (.array element) := by
  obtain ⟨init, rfl⟩ := brackets
  obtain ⟨element, cut, elements⟩ := derived.of_brackets (by simp)
  obtain rfl : init = element := List.append_cancel_right cut
  obtain ⟨ty, reads⟩ := exists_read_of_derives elements
  obtain ⟨c, rest, rfl⟩ := List.exists_cons_of_ne_nil elements.tight.ne_nil
  exact ⟨ty, read_array elements (.inl paren) reads⟩

/-- What was read is read again, as the same type exactly if it is unambiguous. -/
theorem ReadAs.rereads {ty : Ty} (readAs : ReadAs typeParams ty) : Rereads typeParams ty := by
  induction readAs with
  | @name name ty wellFormed known =>
      refine ⟨ty, by rw [text_of_ofName? known, read_name wellFormed known], ?_⟩
      rcases ofName?_cases known with ⟨rfl, -⟩ | rfl | rfl <;>
        simp [same, Unambiguous, referents]
  | array elements ih =>
      obtain ⟨element', reads, same⟩ := ih
      refine ⟨.array element', elements.writable.read_text_array reads, ?_⟩
      rw [Ty.same, same, Unambiguous.array_iff]
  | function each returned eachRead resultRead =>
      obtain ⟨params', readParams, sameParams⟩ := Rereads.each eachRead
      obtain ⟨result', readResult, sameResult⟩ := resultRead
      refine ⟨.function params' result', ?_, ?_⟩
      · exact Writable.read_text_function (fun param member => (each param member).writable)
          returned.writable readParams readResult
      · rw [Ty.same, Bool.and_eq_true, sameParams, sameResult, Unambiguous.function_iff]
  | @application base args wellFormed applied each eachRead =>
      obtain ⟨args', readArgs, sameArgs⟩ := Rereads.each eachRead
      have written : (ofApplication base args).text.toList =
          base.toList ++ '<' :: ((textAll args).toList ++ ['>']) := by
        simp [text_ofApplication]
      have length : args'.length = args.length := by
        simpa using readArgs.length_eq.symm
      refine ⟨ofApplication base args', ?_, ?_⟩
      · rw [written, read_application wellFormed (by simpa using applied)
          (derives_of_each fun arg member => (each arg member).writable.derives)
          (listed_textAll args) readArgs, String.ofList_toList]
      · rw [same_ofApplication length, sameArgs, Unambiguous.ofApplication_iff]
  | @ref referent referents ih =>
      have derived := referents.writable.derives
      rw [Rereads, toList_text_ref, Unambiguous.ref_iff]
      -- The brackets at the end are taken off before the mark in front, so they decide.
      by_cases brackets : referent.EndsInBrackets
      · obtain ⟨element, reads⟩ := reads_array_of_brackets typeParams derived.compact_ref
          (by simp) (brackets.trans (List.suffix_cons _ _))
        exact ⟨_, reads, by simp [Ty.same, brackets]⟩
      · obtain ⟨referent', reads, same⟩ := ih
        refine ⟨.ref referent', read_ref derived brackets reads, ?_⟩
        rw [Ty.same, same]
        exact (and_iff_right brackets).symm
  | @mutRef referent referents ih =>
      have derived := referents.writable.derives
      rw [Rereads, toList_text_mutRef, Unambiguous.mutRef_iff]
      by_cases brackets : referent.EndsInBrackets
      · obtain ⟨element, reads⟩ := reads_array_of_brackets typeParams derived.compact_mutRef
          (by simp) (brackets.trans ⟨['&', 'm', 'u', 't', ' '], rfl⟩)
        exact ⟨_, reads, by simp [Ty.same, brackets]⟩
      · obtain ⟨referent', reads, same⟩ := ih
        refine ⟨.mutRef referent', read_mutRef derived brackets reads, ?_⟩
        rw [Ty.same, same]
        exact (and_iff_right brackets).symm

/-- Whatever text a type was read from, its own text can be read. What that gives is the
same type exactly if no reference in the type is written with brackets at its end. -/
theorem reread_same_iff (named : ∀ param ∈ typeParams, isTypeName param.toList = true)
    {text : List Char} {ty : Ty} (accepted : read typeParams text = .ok ty) :
    ∃ ty', read typeParams ty.text.toList = .ok ty' ∧
      (ty'.same ty = true ↔ ∀ referent ∈ ty.referents, ¬ referent.EndsInBrackets) :=
  (readAs_of_read named accepted).rereads

theorem reread_same_iff_grouped :
    let ty : Ty := .array (.ref (.var "T" none))
    (∀ param ∈ ["T"], isTypeName param.toList = true) ∧
      read ["T"] "(&(T))[]".toList = .ok ty ∧ ty.text = "&T[]" ∧
      ∃ ty', read ["T"] ty.text.toList = .ok ty' ∧ ty'.same ty = true := by
  intro ty
  have named : ∀ param ∈ ["T"], isTypeName param.toList = true := by decide
  have name : isTypeName "T".toList = true := by decide
  have derived : Derives .compact "T".toList := .name name
  have reference : read ["T"] "&(T)".toList = .ok (.ref (.var "T" none)) :=
    read_ref derived.compact_enclosed (by decide) (read_enclosed derived (read_name name rfl))
  have inside : Derives .compact "&(T)".toList := derived.compact_enclosed.compact_ref
  have accepted : read ["T"] "(&(T))[]".toList = .ok ty :=
    read_array inside.compact_enclosed
      (.inr ⟨"&(T)".toList, 0, inside.balanced.mono (Nat.zero_le 1), rfl⟩)
      (read_enclosed inside reference)
  obtain ⟨ty', reads, same⟩ := reread_same_iff named accepted
  exact ⟨named, accepted, by decide, ty', reads, same.mpr (by decide)⟩

/-- A reference to an array, grouped by parentheses, is written without them and is then read
as an array of references. -/
theorem reread_regroups_reference :
    read [] "&(i32[])".toList = .ok (.ref (.array i32)) ∧
      (Ty.ref (.array i32)).text = "&i32[]" ∧
      read [] "&i32[]".toList = .ok (.array (.ref i32)) ∧
      (Ty.array (.ref i32)).same (.ref (.array i32)) = false := by
  have name : isTypeName "i32".toList = true := by decide
  have derived : Derives .compact "i32".toList := .name name
  have element : read [] "i32".toList = .ok i32 := read_name name rfl
  have elements : Derives .compact "i32[]".toList := derived.compact_array
  have array : read [] "i32[]".toList = .ok (.array i32) :=
    read_array derived (.inl (by decide)) element
  refine ⟨?_, by decide, ?_, by decide⟩
  · exact read_ref elements.compact_enclosed (by decide) (read_enclosed elements array)
  · exact read_array derived.compact_ref (.inl (by decide)) (read_ref derived (by decide) element)

end Ty

end ModuleTyping
