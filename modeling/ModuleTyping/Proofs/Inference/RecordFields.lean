import Mathlib.Data.List.Perm.Subperm
import ModuleTyping.Proofs.Inference.Candidates
import ModuleTyping.Proofs.Outcomes
import ModuleTyping.Proofs.Ty.Substitution

/-!
# The fields that a record literal supplies

A literal that is taken for a declared record gives all of its fields and no others. One without
a name gives as many as are declared, so it gives each once. One that names its record is not
counted: it is judged by the first field of each name (`namedRecord_firsts`), and a name that it
repeats passes, with a value that nothing looks at. So its fields are those of the record, each
once, exactly if it repeats no name.

Which fields a type has is told by the type itself, whatever it is applied to and whatever is
substituted in it (`TypeInfo.fieldNames_appliedWith`).
-/

namespace ModuleTyping

/-! ### The fields of a type -/

namespace Ty

/-- The names of the fields of a record, under any number of applications. -/
def fieldNames : Ty → List String
  | generic base _ => base.fieldNames
  | record _ fields => fields.map Prod.fst
  | _ => []

theorem fieldNames_of_fields? {ty : Ty} {declared : List (String × Ty)}
    (fields : ty.fields? = some declared) : ty.fieldNames = declared.map Prod.fst := by
  cases ty with
  | record =>
      cases fields
      rfl
  | generic base args =>
      cases base with
      | record =>
          cases fields
          rfl
      | _ => cases fields
  | _ => cases fields

end Ty

namespace TypeInfo

variable {given given' : List (String × Ty)}

/-- What a declared record is applied to leaves its fields as they are. -/
theorem fieldNames_appliedWith {info : TypeInfo} {declared : List (String × Ty)}
    (fields : info.ty.fields? = some declared) (bindings : Bindings) :
    (info.appliedWith bindings).fieldNames = declared.map Prod.fst := by
  rw [← Ty.fieldNames_of_fields? fields]
  unfold appliedWith applied
  split
  · cases ty : info.ty with
    | record name fields =>
        rw [Ty.subst_record, Ty.fieldNames, Ty.fieldNames, List.map_map]
        rfl
    | generic => rw [Ty.subst_generic, Ty.fieldNames, Ty.fieldNames]
    | _ =>
        rw [ty] at fields
        cases fields
  · rw [Ty.subst_generic, Ty.fieldNames]

/-- A literal without a name gives each field of the record that it fits once. -/
theorem Fits.perm {info : TypeInfo} {bindings : Bindings} (fits : info.Fits given bindings)
    {declared : List (String × Ty)} (fields : info.ty.fields? = some declared)
    (distinct : (declared.map Prod.fst).Nodup) :
    (given.map Prod.fst).Perm (declared.map Prod.fst) := by
  obtain ⟨declared', actuals, fields', counted, found, -⟩ := fits
  cases fields.symm.trans fields'
  have supplied : declared.map Prod.fst ⊆ given.map Prod.fst := by
    intro name member
    obtain ⟨field, fieldMember, rfl⟩ := List.mem_map.mp member
    obtain ⟨actual, -, held⟩ := exists_related found fieldMember
    exact lookup_isSome_iff.mp (by rw [held]; rfl)
  refine ((List.subperm_of_subset distinct supplied).perm_of_length_le ?_).symm
  rw [List.length_map, List.length_map, counted]

/-! ### Checking the fields of a named literal -/

/-- The check looks at the given fields by name. -/
theorem checkFields_congr (same : ∀ name, given.lookup name = given'.lookup name)
    (typeName : String) (origin : Origin) (bindings : Bindings) (declared : List (String × Ty)) :
    checkFields typeName given origin bindings declared =
      checkFields typeName given' origin bindings declared := by
  induction declared generalizing bindings with
  | nil => rfl
  | cons field declared ih =>
      obtain ⟨name, ty⟩ := field
      rw [checkFields, checkFields, same name]
      simp only [ih]

/-- Fields that pass the check are all there. -/
theorem supplied_of_checkFields {typeName : String} {origin : Origin}
    {bindings bindings' : Bindings} {declared : List (String × Ty)}
    {announced after : List Mismatch}
    (ran : checkFields typeName given origin bindings declared announced =
      (.ok bindings', after)) : ∀ name ∈ declared.map Prod.fst, name ∈ given.map Prod.fst := by
  induction declared generalizing bindings announced with
  | nil =>
      rintro name ⟨⟩
  | cons field declared ih =>
      obtain ⟨first, ty⟩ := field
      rw [checkFields] at ran
      cases held : given.lookup first with
      | none =>
          rw [held] at ran
          cases ran
      | some actual =>
          have rest : ∀ name ∈ declared.map Prod.fst, name ∈ given.map Prod.fst := by
            rw [held] at ran
            dsimp only at ran
            rcases fitted : ty.fit bindings actual with ⟨_ | _, middle⟩
            · rw [fitted] at ran
              obtain ⟨_, _, -, ran⟩ := Stateful.ok_of_bind ran
              exact ih ran
            · rw [fitted] at ran
              exact ih ran
          intro name member
          rcases List.mem_cons.mp member with rfl | member
          · exact lookup_isSome_iff.mp (by rw [held]; rfl)
          · exact rest name member

end TypeInfo

/-! ### Repeated names -/

/-- The fields without those whose name has come before. -/
def firsts : List (String × Ty) → List (String × Ty)
  | [] => []
  | field :: rest => field :: (firsts rest).filter fun other => other.1 ≠ field.1

theorem lookup_firsts (given : List (String × Ty)) (name : String) :
    (firsts given).lookup name = given.lookup name := by
  induction given with
  | nil => rfl
  | cons field given ih =>
      have kept (l : List (String × Ty)) (different : name ≠ field.1) :
          (l.filter fun other => other.1 ≠ field.1).lookup name = l.lookup name := by
        induction l with
        | nil => rfl
        | cons other l ih => grind
      rw [firsts, List.lookup_cons, List.lookup_cons]
      by_cases same : name = field.1
      · simp [same]
      · rw [kept _ same, ih]

/-- What is looked for by name is found among the first fields of their names. -/
theorem find?_firsts (wanted : String → Bool) (given : List (String × Ty)) :
    (firsts given).find? (fun field => wanted field.1) =
      given.find? fun field => wanted field.1 := by
  induction given with
  | nil => rfl
  | cons field given ih =>
      rw [firsts, List.find?_cons, List.find?_cons]
      cases first : wanted field.1 with
      | true => rfl
      | false =>
          dsimp only
          rw [List.find?_filter, ← ih]
          congr 1
          funext other
          by_cases same : other.1 = field.1
          · simp [same, first]
          · simp [same]

namespace TypeTable

/-- No registered record has two fields of one name. -/
def DistinctFields (types : TypeTable) : Prop :=
  ∀ name info declared, types.contents.get? name = some info → info.ty.fields? = some declared →
    (declared.map Prod.fst).Nodup

/-- The type is a registered record with these fields, as its type parameters are bound. -/
def IsRecord (types : TypeTable) (ty : Ty) (declared : List (String × Ty)) : Prop :=
  ∃ name info bindings, types.contents.get? name = some info ∧
    info.ty.fields? = some declared ∧ ty = info.appliedWith bindings

theorem IsRecord.fieldNames {types : TypeTable} {ty : Ty} {declared : List (String × Ty)}
    (isRecord : types.IsRecord ty declared) : ty.fieldNames = declared.map Prod.fst := by
  obtain ⟨name, info, bindings, -, fields, rfl⟩ := isRecord
  exact TypeInfo.fieldNames_appliedWith fields bindings

theorem IsRecord.nodup {types : TypeTable} {ty : Ty} {declared : List (String × Ty)}
    (isRecord : types.IsRecord ty declared) (distinct : types.DistinctFields) :
    (declared.map Prod.fst).Nodup := by
  obtain ⟨name, info, bindings, held, fields, -⟩ := isRecord
  exact distinct name info declared held fields

end TypeTable

/-! ### Accepted literals -/

namespace Environment

variable {env : Environment} {given : List (String × Ty)} {origin : Origin}

/-- A literal that names its record is judged by the first field of each name. -/
theorem namedRecord_firsts (env : Environment) (name : String) (given : List (String × Ty))
    (origin : Origin) :
    env.namedRecord name (firsts given) origin = env.namedRecord name given origin := by
  have found (declared : List (String × Ty)) :=
    find?_firsts (fun name => (declared.lookup name).isNone) given
  unfold namedRecord
  simp only [found, TypeInfo.checkFields_congr (lookup_firsts given)]

/-- A literal that names its record has its fields, and no others. -/
theorem supplied_of_namedRecord {name : String} {announced after : List Mismatch} {ty : Ty}
    (ran : env.namedRecord name given origin announced = (.ok ty, after)) :
    ∀ field, field ∈ given.map Prod.fst ↔ field ∈ ty.fieldNames := by
  unfold namedRecord at ran
  cases held : env.types.info? name with
  | none =>
      rw [held] at ran
      cases ran
  | some info =>
      rw [held] at ran
      dsimp only at ran
      cases fields : info.ty.fields? with
      | none =>
          rw [fields] at ran
          cases ran
      | some declared =>
          rw [fields] at ran
          dsimp only at ran
          cases unknown : given.find? fun field => (declared.lookup field.1).isNone with
          | some extra =>
              rw [unknown] at ran
              cases ran
          | none =>
              rw [unknown] at ran
              obtain ⟨bindings, _, checked, ran⟩ := Stateful.ok_of_bind ran
              cases ran
              rw [TypeInfo.fieldNames_appliedWith fields]
              intro field
              refine ⟨fun member => ?_, TypeInfo.supplied_of_checkFields checked field⟩
              obtain ⟨first, firstMember, rfl⟩ := List.mem_map.mp member
              have known := List.find?_eq_none.mp unknown first firstMember
              exact lookup_isSome_iff.mp (by simpa using known)

/-- A literal without a name has the fields of its type, each once. -/
theorem supplied_of_unnamed (distinct : env.types.DistinctFields) :
    (given.map Prod.fst).Perm
      ((env.bestCandidate? given).getD (.record "record" given)).fieldNames := by
  cases chosen : env.bestCandidate? given with
  | none => exact .refl _
  | some ty =>
      obtain ⟨name, best⟩ := bestCandidate?_eq_some_iff.mp chosen
      obtain ⟨info, bindings, held, fits, rfl⟩ := best.offers
      obtain ⟨declared, _, fields, -⟩ := id fits
      rw [Option.getD_some, TypeInfo.fieldNames_appliedWith fields]
      exact fits.perm fields (distinct name info declared held fields)

/-- An accepted literal whose type is a declared record has all the fields of that record and no
others. It has each once, unless it names the record and repeats a name; what comes after the
first field of a name plays no part in how it is judged. -/
theorem record_literal_supplies_fields (distinct : env.types.DistinctFields)
    {name : Option String} {announced : List Mismatch} {ty : Ty}
    (accepted : ((env.recordType name given origin).run announced).1 = .ok ty)
    {declared : List (String × Ty)} (isRecord : env.types.IsRecord ty declared) :
    (∀ field, field ∈ given.map Prod.fst ↔ field ∈ declared.map Prod.fst) ∧
    ((given.map Prod.fst).Perm (declared.map Prod.fst) ↔
      (name.isSome = true → (given.map Prod.fst).Nodup)) ∧
    (name.isSome = true →
      env.recordType name given origin = env.recordType name (firsts given) origin) := by
  have nodup := isRecord.nodup distinct
  rw [← isRecord.fieldNames] at nodup ⊢
  cases name with
  | none =>
      cases accepted
      have supplied : (given.map Prod.fst).Perm
          ((env.bestCandidate? given).getD (.record "record" given)).fieldNames :=
        supplied_of_unnamed distinct
      exact ⟨fun _ => supplied.mem_iff, by simp [supplied], by simp⟩
  | some name =>
      have supplied := supplied_of_namedRecord (Prod.ext accepted rfl)
      refine ⟨supplied, ?_, fun _ => (env.namedRecord_firsts name given origin).symm⟩
      constructor
      · exact fun reordered _ => reordered.nodup_iff.mpr nodup
      · exact fun once => (List.perm_ext_iff_of_nodup (once rfl) nodup).mpr supplied

/-- The table of the scalars and a record with two fields. -/
def withPoint : Environment where
  types := TypeTable.primitives.register
    { name := "Point", ty := .record "Point" [("x", .i32), ("y", .i32)] } {}

theorem distinctFields_withPoint : withPoint.types.DistinctFields := by
  intro name info declared held fields
  have each : withPoint.types.contents.entries.all (fun item =>
      decide ((item.2.ty.fields?.getD []).map Prod.fst).Nodup) = true := rfl
  have nodup := List.all_eq_true.mp each _ (Dict.mem_entries_iff.mpr held)
  simpa [fields] using nodup

theorem isRecord_withPoint : withPoint.types.IsRecord
    (.record "Point" [("x", .i32), ("y", .i32)]) [("x", .i32), ("y", .i32)] :=
  ⟨"Point", _, ∅, rfl, rfl, rfl⟩

/-- A point with its fields in the other order. -/
theorem record_literal_supplies_fields_reordered :
    let given : List (String × Ty) := [("y", .i32), ("x", .i32)]
    let declared : List (String × Ty) := [("x", .i32), ("y", .i32)]
    withPoint.types.DistinctFields ∧ withPoint.types.IsRecord (.record "Point" declared) declared ∧
      ((withPoint.recordType (some "Point") given none).run []).1 =
        .ok (.record "Point" declared) ∧
      (given.map Prod.fst).Nodup ∧ (given.map Prod.fst).Perm (declared.map Prod.fst) := by
  intro given declared
  have accepted : ((withPoint.recordType (some "Point") given none).run []).1 =
      .ok (.record "Point" declared) := rfl
  have once : (given.map Prod.fst).Nodup := by decide
  exact ⟨distinctFields_withPoint, isRecord_withPoint, accepted, once,
    (record_literal_supplies_fields distinctFields_withPoint accepted
      isRecord_withPoint).2.1.mpr fun _ => once⟩

/-- A point that is given a field twice, the second time with a value that does not fit it. -/
theorem repeated_field_accepted :
    let given : List (String × Ty) := [("x", .i32), ("y", .i32), ("x", .string)]
    let declared : List (String × Ty) := [("x", .i32), ("y", .i32)]
    withPoint.types.DistinctFields ∧ withPoint.types.IsRecord (.record "Point" declared) declared ∧
      ((withPoint.recordType (some "Point") given none).run []).1 =
        .ok (.record "Point" declared) ∧
      ¬ (given.map Prod.fst).Perm (declared.map Prod.fst) :=
  ⟨distinctFields_withPoint, isRecord_withPoint, rfl, by decide⟩

end Environment

end ModuleTyping
