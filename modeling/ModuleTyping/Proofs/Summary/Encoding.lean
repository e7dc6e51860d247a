import ModuleTyping.Proofs.Json.RoundTrip
import ModuleTyping.Summary.Json

/-!
# Summaries as JSON values

What is encoded as a JSON value is decoded as what it was (`Json.Restores`), for each kind of
declaration and so for whole summaries. A record is an object with the names of its parts;
that each of them stands there once is all that taking it apart needs.
-/

namespace ModuleTyping

namespace JsonText

/-- No character is half of a surrogate pair. -/
theorem isHigh_toNat (c : Char) : isHigh c.toNat = false ∧ isLow c.toNat = false := by
  have valid : c.toNat < 0xd800 ∨ 0xdfff < c.toNat ∧ c.toNat < 0x110000 := c.valid
  simp only [isHigh, isLow, Bool.and_eq_false_iff, decide_eq_false_iff_not]
  omega

theorem toText?_ofText (text : String) : (ofText text).toText? = some text := by
  have chars (chars : List Char) : toChars? (chars.map Char.toNat) = some chars := by
    induction chars with
    | nil => rfl
    | cons c chars ih =>
        rw [List.map_cons, toChars?.eq_def]
        simp [isHigh_toNat c, ih]
  rw [toText?, ofText, chars, Option.map_some, String.ofList_toList]

end JsonText

namespace Json

variable {α : Type} {encode : α → Json} {decode : Decoder α}

/-- Decoding gives back what was encoded, as a value that can be written. -/
structure Restores (encode : α → Json) (decode : Decoder α) : Prop where
  plain : ∀ x, Plain (encode x)
  decodes : ∀ x, decode (encode x) = some x

/-- What was encoded is decoded from its text. -/
theorem Restores.read?_toText (restores : Restores encode decode) (x : α) :
    (read? (encode x).toText.toList).bind decode = some x := by
  rw [(restores.plain x).read?_toText, Option.bind_some, restores.decodes]

theorem restores_text : Restores (fun text => .text (.ofText text)) asText where
  plain text := .text ⟨text, rfl⟩
  decodes text := JsonText.toText?_ofText text

theorem restores_bool : Restores bool asBool where
  plain := .bool
  decodes _ := rfl

theorem Restores.list (restores : Restores encode decode) :
    Restores (fun xs : List α => array (xs.map encode)) (asList decode) where
  plain xs := by
    refine .array fun value listed => ?_
    obtain ⟨x, -, rfl⟩ := List.mem_map.mp listed
    exact restores.plain x
  decodes xs := by
    unfold asList
    dsimp only
    induction xs with
    | nil => rfl
    | cons x xs ih => rw [List.map_cons, List.mapM_cons, restores.decodes, ih]; rfl

/-- An object by the names of its members. -/
def named (members : List (String × Json)) : Json :=
  object (members.map fun member => (.ofText member.1, member.2))

theorem plain_named {members : List (String × Json)} (each : ∀ member ∈ members, Plain member.2) :
    Plain (named members) := by
  refine .object (fun member listed => ?_) fun member listed => ?_
  · obtain ⟨member, -, rfl⟩ := List.mem_map.mp listed
    exact ⟨member.1, rfl⟩
  · obtain ⟨member, known, rfl⟩ := List.mem_map.mp listed
    exact each member known

theorem length_valuesOf_le {members : List (String × Json)} (once : (members.map Prod.fst).Nodup)
    (name : String) : (valuesOf name members).length ≤ 1 := by
  induction members with
  | nil => exact Nat.zero_le 1
  | cons member members ih =>
      obtain ⟨new, once⟩ := List.nodup_cons.mp once
      by_cases called : member.1 = name
      · have others : valuesOf name members = [] := by
          simp only [valuesOf, List.map_eq_nil_iff, List.filter_eq_nil_iff, decide_eq_true_eq]
          intro other listed same
          exact new (List.mem_map.mpr ⟨other, listed, same.trans called.symm⟩)
        unfold valuesOf at others ⊢
        simp [called, others]
      · unfold valuesOf at ih ⊢
        simpa [called] using ih once

/-- A record whose parts stand there once each. -/
theorem parts?_named {members : List (String × Json)} {names : List String}
    (distinct : names.Nodup) (listed : (members.map Prod.fst).Sublist names) :
    (named members).parts? names = some members := by
  have read : (members.map fun member => (JsonText.ofText member.1, member.2)).mapM
      (fun member => member.1.toText?.map (·, member.2)) = some members := by
    clear listed
    induction members with
    | nil => rfl
    | cons member members ih =>
        rw [List.map_cons, List.mapM_cons, JsonText.toText?_ofText, ih]
        rfl
  have single : (names.all fun name => (valuesOf name members).length ≤ 1) = true := by
    simpa using fun name _ => length_valuesOf_le (distinct.sublist listed) name
  have kept : members.filter (·.1 ∈ names) = members := by
    rw [List.filter_eq_self]
    intro member known
    exact decide_eq_true (listed.subset (List.mem_map_of_mem known))
  unfold named parts?
  simp only
  rw [read, Option.bind_eq_bind, Option.bind_some, if_pos single, kept]

/-- A record is restored if its parts are. -/
theorem Restores.record (parts : α → List (String × Json)) {names : List String}
    {read : List (String × Json) → Option α} (distinct : names.Nodup)
    (listed : ∀ x, ((parts x).map Prod.fst).Sublist names)
    (plain : ∀ x, ∀ part ∈ parts x, Plain part.2) (reads : ∀ x, read (parts x) = some x) :
    Restores (fun x => named (parts x)) fun value => (value.parts? names).bind read where
  plain x := plain_named (plain x)
  decodes x := by rw [parts?_named distinct (listed x), Option.bind_some, reads]

end Json

namespace Summary

open Json

theorem restores_texts : Restores encodeTexts (asList asText) :=
  restores_text.list

theorem restores_param : Restores Param.encode Param.decode := by
  refine .record (fun param : Param => [
    ("name", .text (.ofText param.name)),
    ("type", .text (.ofText param.ty))]) (by decide) (fun param => .refl _) (fun param => ?_)
      fun param => ?_
  · simp [restores_text.plain]
  · simp [required, List.lookup_cons, restores_text.decodes]

/-- The part for type parameters, which is left out when there are none. -/
def typeParamParts (typeParams : List String) : List (String × Json) :=
  if typeParams.isEmpty then [] else [("type_params", encodeTexts typeParams)]

/-- A declaration by its parts, the type parameters last. -/
theorem object_typeParams (parts : List (String × Json)) (typeParams : List String) :
    object (parts.map (fun part => (.ofText part.1, part.2)) ++ encodeTypeParams typeParams) =
      named (parts ++ typeParamParts typeParams) := by
  cases typeParams <;> simp [named, encodeTypeParams, typeParamParts]

theorem plain_typeParams {typeParams : List String} :
    ∀ part ∈ typeParamParts typeParams, Plain part.2 := by
  cases typeParams <;> simp [typeParamParts, restores_texts.plain]

theorem sublist_typeParams (typeParams : List String) :
    ((typeParamParts typeParams).map Prod.fst).Sublist ["type_params"] := by
  cases typeParams <;> simp [typeParamParts]

theorem decodeTypeParams_parts (typeParams : List String) :
    decodeTypeParams (typeParamParts typeParams) = some typeParams := by
  cases typeParams with
  | nil => rfl
  | cons first rest => exact restores_texts.decodes (first :: rest)

/-- Parts with other names say nothing of type parameters. -/
theorem decodeTypeParams_cons {name : String} (other : "type_params" ≠ name) (value : Json)
    (parts : List (String × Json)) :
    decodeTypeParams ((name, value) :: parts) = decodeTypeParams parts := by
  simp [decodeTypeParams, Json.optional, List.lookup_cons, beq_false_of_ne other]

theorem restores_function : Restores Function.encode Function.decode := by
  have encoded : Function.encode = fun decl : Function => named ([
      ("name", .text (.ofText decl.name)),
      ("params", .array (decl.params.map Param.encode)),
      ("return_type", .text (.ofText decl.result)),
      ("is_exported", .bool decl.exported)] ++ typeParamParts decl.typeParams) := by
    funext decl
    rw [← object_typeParams]
    rfl
  rw [encoded]
  refine .record _ (by decide) (fun decl => ?_) (fun decl => ?_) fun decl => ?_
  · simpa using sublist_typeParams decl.typeParams
  · have params := restores_param.list.plain decl.params
    have typeParams := @plain_typeParams decl.typeParams
    simpa [restores_text.plain, restores_bool.plain, params] using typeParams
  · have params := restores_param.list.decodes decl.params
    simp [required, Json.optional, List.lookup_cons, restores_text.decodes, restores_bool.decodes,
      params, decodeTypeParams_cons, decodeTypeParams_parts]

theorem restores_typeDecl : Restores TypeDecl.encode TypeDecl.decode := by
  have encoded : TypeDecl.encode = fun decl : TypeDecl => named ([
      ("name", .text (.ofText decl.name)),
      ("kind", .text (.ofText decl.kind)),
      ("fields", .array (decl.fields.map Param.encode))] ++ typeParamParts decl.typeParams) := by
    funext decl
    rw [← object_typeParams]
    rfl
  rw [encoded]
  refine .record _ (by decide) (fun decl => ?_) (fun decl => ?_) fun decl => ?_
  · simpa using sublist_typeParams decl.typeParams
  · have fields := restores_param.list.plain decl.fields
    simpa [restores_text.plain, fields] using @plain_typeParams decl.typeParams
  · have fields := restores_param.list.decodes decl.fields
    simp [required, Json.optional, List.lookup_cons, restores_text.decodes, fields,
      decodeTypeParams_cons, decodeTypeParams_parts]

/-- A list of texts is sound and has no more than one level. -/
theorem sound_texts (texts : List String) :
    isSound (encodeTexts texts) = true ∧ depth (encodeTexts texts) = 1 := by
  unfold encodeTexts
  rw [isSound, depth]
  induction texts with
  | nil => exact ⟨rfl, rfl⟩
  | cons first rest ih =>
      simpa [allSound, isSound, depthAll, depth, JsonText.toText?_ofText] using ih

theorem encode_detailed (name : String) (fields : List String) :
    (Variant.detailed name fields).encode =
      named [("name", .text (.ofText name)), ("fields", encodeTexts fields)] := rfl

theorem restores_variant : Restores Variant.encode Variant.decode where
  plain variant := by
    cases variant with
    | bare name => exact restores_text.plain name
    | detailed name fields =>
        rw [encode_detailed]
        refine plain_named ?_
        simpa using ⟨restores_text.plain name, restores_texts.plain fields⟩
  decodes variant := by
    cases variant with
    | bare name =>
        simp [Variant.encode, Variant.decode, isSound, depth, JsonText.toText?_ofText]
    | detailed name fields =>
        obtain ⟨sound, deep⟩ := sound_texts fields
        have parts : parts? ["name", "fields"] (Variant.detailed name fields).encode =
            some [("name", .text (.ofText name)), ("fields", encodeTexts fields)] := by
          rw [encode_detailed]
          exact parts?_named (by decide) (.refl _)
        rw [Variant.encode] at parts
        simp [Variant.encode, Variant.decode, isSound, membersSound, depth, depthMembers,
          JsonText.toText?_ofText, sound, deep, Variant.depthLimit, parts, required,
          List.lookup_cons, restores_text.decodes, restores_texts.decodes]

theorem restores_sumDecl : Restores SumDecl.encode SumDecl.decode := by
  have encoded : SumDecl.encode = fun decl : SumDecl => named ([
      ("name", .text (.ofText decl.name)),
      ("kind", .text (.ofText decl.kind)),
      ("variants", .array (decl.variants.map Variant.encode))] ++
        typeParamParts decl.typeParams) := by
    funext decl
    rw [← object_typeParams]
    rfl
  rw [encoded]
  refine .record _ (by decide) (fun decl => ?_) (fun decl => ?_) fun decl => ?_
  · simpa using sublist_typeParams decl.typeParams
  · have variants := restores_variant.list.plain decl.variants
    simpa [restores_text.plain, variants] using @plain_typeParams decl.typeParams
  · have variants := restores_variant.list.decodes decl.variants
    simp [required, Json.optional, List.lookup_cons, restores_text.decodes, variants,
      decodeTypeParams_cons, decodeTypeParams_parts]

theorem restores_exports : Restores Exports.encode Exports.decode := by
  refine .record (fun exports : Exports => [
    ("functions", .array (exports.functions.map Function.encode)),
    ("types", .array (exports.types.map TypeDecl.encode)),
    ("sum_types", .array (exports.sumTypes.map SumDecl.encode))]) (by decide)
      (fun exports => .refl _) (fun exports => ?_) fun exports => ?_
  · simpa using ⟨restores_function.list.plain exports.functions,
      restores_typeDecl.list.plain exports.types, restores_sumDecl.list.plain exports.sumTypes⟩
  · have functions := restores_function.list.decodes exports.functions
    have types := restores_typeDecl.list.decodes exports.types
    have sumTypes := restores_sumDecl.list.decodes exports.sumTypes
    simp [Json.optional, List.lookup_cons, functions, types, sumTypes]

/-- Summaries are restored from what they are encoded as. -/
theorem restores_summary : Restores Summary.encode Summary.decode := by
  refine .record (fun summary : Summary => [
    ("module_name", .text (.ofText summary.moduleName)),
    ("exports", summary.exports.encode)]) (by decide)
      (fun summary => .refl _) (fun summary => ?_) fun summary => ?_
  · simpa using ⟨restores_text.plain summary.moduleName, restores_exports.plain summary.exports⟩
  · simp [required, Json.optional, List.lookup_cons, restores_text.decodes,
      restores_exports.decodes]

/-- Every summary is read back from its text: whatever characters its texts consist of,
whichever of its lists are empty and whatever kinds it gives its types. -/
theorem ofJson?_toJson (summary : Summary) : ofJson? summary.toJson = some summary :=
  restores_summary.read?_toText summary

end Summary

end ModuleTyping
