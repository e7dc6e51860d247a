import ModuleTyping.Inference.Members
import ModuleTyping.Inference.Records
import ModuleTyping.Proofs.Inference.Erasure
import ModuleTyping.Proofs.SymbolTable.Resemblance
import ModuleTyping.Typed.Matching

/-!
# Environments with types known by their names

Environments are akin if they give the same names akin types, where in the table of types
itself the declarations stay and only what they hold may differ (`Environment.Akin`). If the
table tells every name that is known (`Environment.Told`), it makes no difference whether a
type holds a declaration or its name: what the name does not tell is looked up. So calls,
members, record literals and matches are accepted in both of two akin environments or in
neither, and come to akin types.
-/

namespace ModuleTyping

open Stateful (Agree)
open Check (Agrees)
open Instantiation (AkinBindings)

namespace Ty

variable {known : Outlines} {a b : Ty}

/-! ### Fields and variants -/

/-- Fields of the same names and of akin types. -/
abbrev AkinFields (known : Outlines) : List (String × Ty) → List (String × Ty) → Prop :=
  List.Forall₂ fun field field' => field.1 = field'.1 ∧ field.2.Akin known field'.2

theorem akinFields_iff {fields fields' : List (String × Ty)} :
    AkinFields known fields fields' ↔ eraseFields known fields = eraseFields known fields' := by
  rw [eraseFields_eq, eraseFields_eq, ← List.forall₂_eq_eq_eq, List.forall₂_map_left_iff,
    List.forall₂_map_right_iff]
  simp only [Prod.mk.injEq]
  rfl

theorem AkinFields.lookup {fields fields' : List (String × Ty)}
    (akin : AkinFields known fields fields') (name : String) :
    Option.Rel (Akin known) (fields.lookup name) (fields'.lookup name) := by
  induction akin with
  | nil => exact .none
  | @cons field field' fields fields' first _ ih =>
      obtain ⟨declared, ty⟩ := field
      obtain ⟨declared', ty'⟩ := field'
      obtain ⟨rfl, tys⟩ : declared = declared' ∧ ty.Akin known ty' := first
      rw [List.lookup_cons, List.lookup_cons]
      cases name == declared with
      | true => exact .some tys
      | false => exact ih

theorem lookup_eq_none {fields : List (String × Ty)} {name : String} :
    fields.lookup name = none ↔ name ∉ fields.map Prod.fst := by
  rw [← lookup_isSome_iff, Option.not_isSome_iff_eq_none]

theorem fields?_eraseWithin (ty : Ty) :
    (ty.eraseWithin known).fields? = ty.fields?.map (eraseFields known) := by
  cases ty with
  | record name fields => rfl
  | generic base args => cases base <;> rfl
  | _ => rfl

theorem variants?_eraseWithin (ty : Ty) :
    (ty.eraseWithin known).variants? = ty.variants?.map (eraseVariants known) := by
  cases ty with
  | sum name variants => rfl
  | generic base args => cases base <;> rfl
  | _ => rfl

/-- What the type holds itself, if anything, is told by its name. -/
def IsVouched (known : Outlines) (ty : Ty) : Prop :=
  ty.base.isTold known = true ∨ ty.fields? = none ∧ ty.variants? = none

theorem known_of_isTold {ty : Ty} (told : ty.isTold known = true) :
    ∃ outline, known ty.name = some outline := by
  cases ty with
  | record name fields => exact ⟨_, of_decide_eq_true told⟩
  | sum name variants => exact ⟨_, of_decide_eq_true told⟩
  | _ => cases told

@[simp] theorem name_base (ty : Ty) : ty.base.name = ty.name := by
  cases ty <;> rfl

theorem IsVouched.record {ty : Ty} (vouched : IsVouched known ty) {fields : List (String × Ty)}
    (holds : ty.fields? = some fields) : known ty.name = some (.record (fields.map Prod.fst)) := by
  rcases vouched with told | ⟨none, -⟩
  · rw [← name_base]
    unfold fields? at holds
    generalize ty.base = base at told holds
    cases base with
    | record name fields' =>
        cases holds
        exact of_decide_eq_true told
    | _ => cases holds
  · cases holds.symm.trans none

theorem IsVouched.sum {ty : Ty} (vouched : IsVouched known ty)
    {variants : List (String × List Ty)} (holds : ty.variants? = some variants) :
    known ty.name = some .sum := by
  rcases vouched with told | ⟨-, none⟩
  · rw [← name_base]
    unfold variants? at holds
    generalize ty.base = base at told holds
    cases base with
    | sum name variants' => exact of_decide_eq_true told
    | _ => cases holds
  · cases holds.symm.trans none

/-- The erased type holds what the type holds, but for what is erased within, or it holds
nothing because the name tells it. -/
def HeldBy (known : Outlines) (ty erased : Ty) : Prop :=
  ty.base.isTold known = true ∧ erased.fields? = none ∧ erased.variants? = none ∨
    erased.fields? = ty.fields?.map (eraseFields known) ∧
      erased.variants? = ty.variants?.map (eraseVariants known)

theorem heldBy_erase (ty : Ty) : HeldBy known ty (ty.erase known) := by
  cases ty with
  | record name fields =>
      rw [erase]
      split
      · next told => exact .inl ⟨(Bool.and_eq_true _ _ ▸ told).1, rfl, rfl⟩
      · exact .inr ⟨rfl, rfl⟩
  | sum name variants =>
      rw [erase]
      split
      · next told => exact .inl ⟨(Bool.and_eq_true _ _ ▸ told).1, rfl, rfl⟩
      · exact .inr ⟨rfl, rfl⟩
  | generic base args =>
      rw [erase]
      split
      · next told => exact .inl ⟨told, rfl, rfl⟩
      · next untold =>
          cases base with
          | record name fields =>
              rw [erase, if_neg fun told => untold (Bool.and_eq_true _ _ ▸ told).1]
              exact .inr ⟨rfl, rfl⟩
          | sum name variants =>
              rw [erase, if_neg fun told => untold (Bool.and_eq_true _ _ ▸ told).1]
              exact .inr ⟨rfl, rfl⟩
          | _ => exact .inr ⟨rfl, rfl⟩
  | _ => exact .inr ⟨rfl, rfl⟩

theorem heldBy_eraseBase (ty : Ty) : HeldBy known ty (ty.eraseBase known) := by
  unfold eraseBase
  split
  · next told =>
      refine .inl ⟨?_, rfl, rfl⟩
      cases ty with
      | generic base args => cases told
      | _ => exact told
  · exact heldBy_erase ty

theorem HeldBy.isVouched {ty erased : Ty} (held : HeldBy known ty erased)
    (fields : erased.fields? = none) (variants : erased.variants? = none) :
    IsVouched known ty := by
  rcases held with ⟨told, -, -⟩ | ⟨fields', variants'⟩
  · exact .inl told
  · exact .inr ⟨Option.map_eq_none_iff.mp (fields'.symm.trans fields),
      Option.map_eq_none_iff.mp (variants'.symm.trans variants)⟩

/-- Types that erase alike hold akin fields and variants of the same names, or what they hold
is told by the name that they share. -/
theorem HeldBy.both {erased : Ty} (first : HeldBy known a erased) (second : HeldBy known b erased)
    (names : a.name = b.name) :
    (∃ outline, known a.name = some outline) ∧ IsVouched known a ∧ IsVouched known b ∨
      Option.Rel (AkinFields known) a.fields? b.fields? ∧
        a.variants?.map (List.map Prod.fst) = b.variants?.map (List.map Prod.fst) := by
  have named {ty : Ty} (told : ty.base.isTold known = true) :
      ∃ outline, known ty.name = some outline := name_base ty ▸ known_of_isTold told
  rcases id first with ⟨told, fields, variants⟩ | ⟨fields, variants⟩
  · exact .inl ⟨named told, first.isVouched fields variants, second.isVouched fields variants⟩
  · rcases id second with ⟨told, fields', variants'⟩ | ⟨fields', variants'⟩
    · exact .inl ⟨names ▸ named told, first.isVouched fields' variants',
        second.isVouched fields' variants'⟩
    · refine .inr ⟨?_, ?_⟩
      · have same := rel_of_map_eq (fields.symm.trans fields')
        simp only [← akinFields_iff] at same
        exact same
      · have same := congrArg (Option.map (List.map Prod.fst)) (variants.symm.trans variants')
        simpa [Function.comp_def] using same

end Ty

/-! ### Members that no declaration has -/

namespace Ty

variable {known : Outlines} {a b : Ty}

/-- The type of a member that no declaration has: a field that the type holds itself, or a
property that all types of its kind have. -/
def ownMember (object : Ty) (member : String) (origin : Origin) : Check Ty :=
  match object.fields? with
  | some fields =>
    match fields.lookup member with
    | some ty => pure ty
    | none => Check.fail (.unknownField member object.text) origin
  | none =>
    match object.property? member with
    | some ty => pure ty
    | none =>
      if object.isString && member == "length" then pure .i32
      else if object.hasNumberMethods && member == "sqrt" then pure .f32
      else Check.fail (.unknownMember member object) origin

theorem agrees_ownMember (objects : Akin known a b)
    (fields : Option.Rel (AkinFields known) a.fields? b.fields?) (member : String)
    (origin : Origin) :
    Agrees (Akin known) (a.ownMember member origin) (b.ownMember member origin) := by
  unfold ownMember
  generalize a.fields? = held at fields ⊢
  generalize b.fields? = held' at fields ⊢
  cases fields with
  | none =>
      dsimp only
      rw [property?_eq objects, objects.isString, objects.hasNumberMethods]
      split
      · exact .pure rfl
      · refine .ite Iff.rfl (fun _ => .pure rfl) fun _ => ?_
        exact .ite Iff.rfl (fun _ => .pure rfl) fun _ => Check.agrees_fail ..
  | @some held held' fields =>
      dsimp only
      generalize found : held.lookup member = field
      generalize found' : held'.lookup member = field'
      cases found ▸ found' ▸ fields.lookup member with
      | none => exact Check.agrees_fail ..
      | some tys => exact .pure tys

theorem plain_of_fields? {fields : List (String × Ty)} (holds : a.fields? = some fields)
    (member : String) : a.property? member = none ∧ a.isVar = false := by
  cases a <;> first | exact ⟨rfl, rfl⟩ | cases holds

/-- Of two akin types that are told by their name, neither holds fields, or the name is that
of a record. -/
theorem no_fields_or_record (vouched : IsVouched known a) (vouched' : IsVouched known b)
    (objects : Akin known a b) (member : String) :
    Option.Rel (AkinFields known) a.fields? b.fields? ∨
      ∃ names, known a.name = some (.record names) ∧ a.property? member = none ∧
        a.isVar = false := by
  cases holds : a.fields? with
  | some fields => exact .inr ⟨_, vouched.record holds, plain_of_fields? holds member⟩
  | none =>
      cases holds' : b.fields? with
      | none => exact .inl .none
      | some fields =>
          obtain ⟨plain, notVar⟩ := plain_of_fields? holds' member
          exact .inr ⟨_, objects.name ▸ vouched'.record holds', property?_eq objects member ▸ plain,
            objects.isVar ▸ notVar⟩

/-- A type whose name tells what it holds has no member but those, unless it is a scalar. -/
theorem ownMember_of_isVouched (vouched : IsVouched known a) {names : List String}
    (outlined : known a.name = some (.record names)) (named : a.name ∉ primitiveNames)
    {member : String} (missing : member ∉ names) (plain : a.property? member = none)
    (notVar : a.isVar = false) (origin : Origin) :
    ∃ cause, a.ownMember member origin = Check.fail cause origin := by
  unfold ownMember
  cases holds : a.fields? with
  | some fields =>
      have same := outlined.symm.trans (vouched.record holds)
      obtain rfl := Outline.record.inj (Option.some.inj same)
      simp only [lookup_eq_none.mpr missing]
      exact ⟨_, rfl⟩
  | none =>
      have normal : ModuleTyping.normalName a.name = a.name := by
        unfold ModuleTyping.normalName
        split
        · next text => exact absurd (text ▸ by decide) named
        · rfl
      have text : a.isString = false := by
        rw [isString, normalName, normal, beq_eq_false_iff_ne]
        intro text
        exact named (text ▸ by decide)
      have number : a.hasNumberMethods = false := by
        have numeric : isNumericName a.name = false := by
          rw [← Bool.not_eq_true]
          intro numeric
          have listed : ∀ name ∈ numericNames, name ∈ primitiveNames := by decide
          exact named (listed _ (List.contains_iff_mem.mp numeric))
        rw [hasNumberMethods, isNumeric, notVar, normalName, normal, numeric]
        rfl
      simp only [plain, text, number]
      exact ⟨_, rfl⟩

end Ty

/-! ### Scopes -/

namespace Scopes

/-- Scopes with the same names for akin types. -/
structure Akin (known : Outlines) (a b : Scopes) : Prop where
  inner : AkinBindings known a.inner b.inner
  outer : List.Forall₂ (AkinBindings known) a.outer b.outer

namespace Akin

variable {known : Outlines} {a b : Scopes}

theorem refl (scopes : Scopes) : Akin known scopes scopes :=
  ⟨rfl, List.forall₂_same.mpr fun _ _ => rfl⟩

theorem push (akin : Akin known a b) : Akin known a.push b.push :=
  ⟨rfl, .cons akin.inner akin.outer⟩

theorem pop (akin : Akin known a b) : Akin known a.pop b.pop := by
  obtain ⟨inner, outer⟩ := a
  obtain ⟨inner', outer'⟩ := b
  cases akin.outer with
  | nil => exact akin
  | cons next rest => exact ⟨next, rest⟩

theorem bind (akin : Akin known a b) (name : String) {ty ty' : Ty} (tys : ty.Akin known ty') :
    Akin known (a.bind name ty) (b.bind name ty') := by
  refine ⟨?_, akin.outer⟩
  show (a.inner.insert name ty).mapValues _ = (b.inner.insert name ty').mapValues _
  rw [Dict.mapValues_insert, Dict.mapValues_insert, akin.inner, tys]

theorem lookup? (akin : Akin known a b) (name : String) :
    Option.Rel (Ty.Akin known) (a.lookup? name) (b.lookup? name) := by
  have found {scopes scopes' : List (Dict Ty)}
      (all : List.Forall₂ (AkinBindings known) scopes scopes') :
      Option.Rel (Ty.Akin known) (scopes.findSome? (·.get? name))
        (scopes'.findSome? (·.get? name)) := by
    induction all with
    | nil => exact .none
    | @cons scope scope' _ _ first _ ih =>
        rw [List.findSome?_cons, List.findSome?_cons]
        generalize held : scope.get? name = ty
        generalize held' : scope'.get? name = ty'
        cases held ▸ held' ▸ first.get? name with
        | none => exact ih
        | some tys => exact .some tys
  exact found (.cons akin.inner akin.outer)

theorem contains (akin : Akin known a b) (name : String) : a.contains name = b.contains name :=
  isSome_eq_of_rel (akin.lookup? name)

end Akin

end Scopes

/-! ### Declarations -/

namespace TypeInfo

/-- Declarations that differ in nothing but what is erased within them. They stand for no
variable and apply none. -/
structure Akin (known : Outlines) (info info' : TypeInfo) : Prop where
  typeParams : info.typeParams = info'.typeParams
  ty : info.ty.eraseWithin known = info'.ty.eraseWithin known
  rooted : info.ty.isRooted = true
  notVar : info.ty.isVar = false

namespace Akin

variable {known : Outlines} {info info' : TypeInfo}

theorem refl (rooted : info.ty.isRooted = true) (notVar : info.ty.isVar = false) :
    Akin known info info :=
  ⟨rfl, rfl, rooted, notVar⟩

theorem ty_akin (akin : Akin known info info') : info.ty.Akin known info'.ty :=
  Ty.erase_of_eraseWithin akin.ty

theorem fields? (akin : Akin known info info') :
    Option.Rel (Ty.AkinFields known) info.ty.fields? info'.ty.fields? := by
  have same := congrArg Ty.fields? akin.ty
  rw [Ty.fields?_eraseWithin, Ty.fields?_eraseWithin] at same
  have related := rel_of_map_eq same
  simp only [← Ty.akinFields_iff] at related
  exact related

theorem variantNames (akin : Akin known info info') :
    info.ty.variants?.map (List.map Prod.fst) = info'.ty.variants?.map (List.map Prod.fst) := by
  have same := congrArg Ty.variants? akin.ty
  rw [Ty.variants?_eraseWithin, Ty.variants?_eraseWithin] at same
  simpa [Function.comp_def] using congrArg (Option.map (List.map Prod.fst)) same

theorem applied (akin : Akin known info info') : info.applied.Akin known info'.applied := by
  unfold TypeInfo.applied
  rw [akin.typeParams]
  split
  · exact akin.ty_akin
  · have bases := Ty.eraseBase_of_eraseWithin akin.ty
    unfold Ty.eraseBase at bases
    unfold Ty.Akin
    rw [Ty.erase, Ty.erase, bases]

theorem bindingsOf (akin : Akin known info info') {args args' : List Ty}
    (args_akin : Ty.AkinAll known args args') :
    AkinBindings known (info.bindingsOf args) (info'.bindingsOf args') := by
  unfold TypeInfo.bindingsOf AkinBindings
  rw [Dict.mapValues_ofList, Dict.mapValues_ofList, akin.typeParams]
  refine congrArg Dict.ofList ?_
  have erased := Ty.akinAll_iff.mp args_akin
  rw [Ty.eraseAll_eq, Ty.eraseAll_eq] at erased
  have zipped (args : List Ty) (names : List String) :
      (names.zip args).map (fun pair => (pair.1, pair.2.erase known)) =
        names.zip (args.map (Ty.erase known)) := by
    rw [List.zip_map_right]
    rfl
  rw [zipped, zipped, erased]

end Akin

/-! ### Record literals -/

section Literals

variable {known : Outlines} {given given' declared declared' : List (String × Ty)}
  {bindings bindings' : Bindings}

theorem fit_akin {pattern pattern' actual actual' : Ty}
    (bound : AkinBindings known bindings bindings') (patterns : pattern.Akin known pattern')
    (actuals : actual.Akin known actual') :
    ∃ fits after after', pattern.fit bindings actual = (fits, after) ∧
      pattern'.fit bindings' actual' = (fits, after') ∧ AkinBindings known after after' := by
  have same : Ty.eraseFit known (pattern.fit bindings actual) =
      Ty.eraseFit known (pattern'.fit bindings' actual') := by
    unfold AkinBindings at bound
    unfold Ty.Akin at patterns actuals
    rw [← Ty.fit_erase, ← Ty.fit_erase, bound, patterns, actuals]
  have fits : (pattern'.fit bindings' actual').1 = (pattern.fit bindings actual).1 :=
    (congrArg Prod.fst same).symm
  exact ⟨_, _, (pattern'.fit bindings' actual').2, rfl, Prod.ext fits rfl,
    congrArg Prod.snd same⟩

theorem fitFields_related (givens : Ty.AkinFields known given given')
    (declareds : Ty.AkinFields known declared declared')
    (bound : AkinBindings known bindings bindings') :
    Option.Rel (AkinBindings known) (fitFields given bindings declared)
      (fitFields given' bindings' declared') := by
  induction declareds generalizing bindings bindings' with
  | nil => exact .some bound
  | @cons field field' _ _ first _ ih =>
      obtain ⟨name, ty⟩ := field
      obtain ⟨name', ty'⟩ := field'
      obtain ⟨rfl, tys⟩ : name = name' ∧ ty.Akin known ty' := first
      rw [fitFields, fitFields]
      generalize found : given.lookup name = actual
      generalize found' : given'.lookup name = actual'
      cases found ▸ found' ▸ givens.lookup name with
      | none => exact .none
      | @some actual actual' actuals =>
          obtain ⟨fits, _, _, fitted, fitted', after⟩ := fit_akin bound tys actuals
          dsimp only
          rw [fitted, fitted']
          cases fits with
          | true => exact ih after
          | false => exact .none

theorem agrees_checkFields (givens : Ty.AkinFields known given given')
    (declareds : Ty.AkinFields known declared declared')
    (bound : AkinBindings known bindings bindings') (typeName : String) (origin : Origin) :
    Agrees (AkinBindings known) (checkFields typeName given origin bindings declared)
      (checkFields typeName given' origin bindings' declared') := by
  induction declareds generalizing bindings bindings' with
  | nil => exact .pure bound
  | @cons field field' _ _ first _ ih =>
      obtain ⟨name, ty⟩ := field
      obtain ⟨name', ty'⟩ := field'
      obtain ⟨rfl, tys⟩ : name = name' ∧ ty.Akin known ty' := first
      rw [checkFields, checkFields]
      generalize found : given.lookup name = actual
      generalize found' : given'.lookup name = actual'
      cases found ▸ found' ▸ givens.lookup name with
      | none => exact Check.agrees_fail ..
      | @some actual actual' actuals =>
          obtain ⟨fits, _, _, fitted, fitted', after⟩ := fit_akin bound tys actuals
          dsimp only
          rw [fitted, fitted']
          cases fits with
          | true => exact ih after
          | false =>
              exact Agree.bind (Check.agrees_compatible actuals (tys.subst after) ..)
                fun _ _ _ => ih after

/-- A field that is not declared is given in both literals or in neither. -/
theorem find?_undeclared (givens : Ty.AkinFields known given given')
    (declareds : Ty.AkinFields known declared declared') :
    (given.find? fun field => (declared.lookup field.1).isNone).isSome =
      (given'.find? fun field => (declared'.lookup field.1).isNone).isSome := by
  induction givens with
  | nil => rfl
  | @cons field field' _ _ first _ ih =>
      have same : (declared.lookup field.1).isNone = (declared'.lookup field'.1).isNone := by
        rw [← first.1, ← Option.not_isSome, ← Option.not_isSome,
          isSome_eq_of_rel (declareds.lookup field.1)]
      rw [List.find?_cons, List.find?_cons, same]
      split
      · rfl
      · exact ih

variable {info info' : TypeInfo}

theorem candidate?_related (infos : Akin known info info')
    (givens : Ty.AkinFields known given given') :
    Option.Rel (Ty.Akin known) (info.candidate? given) (info'.candidate? given') := by
  refine rel_bind infos.fields? fun declared declared' declareds => ?_
  rw [declareds.length_eq, givens.length_eq]
  split
  · refine rel_bind (fitFields_related givens declareds (show AkinBindings known ∅ ∅ from rfl))
      fun _ _ bound => ?_
    exact .some (infos.applied.subst bound)
  · exact .none

end Literals

end TypeInfo

namespace Signature

variable {known : Outlines} {sig sig' : Signature}

theorem Akin.specialize (akin : sig.Akin known sig') {scrutinee scrutinee' : Ty}
    (scrutinees : scrutinee.Akin known scrutinee') :
    (sig.specialize scrutinee).Akin known (sig'.specialize scrutinee') := by
  have bound : AkinBindings known (sig.bindingsFor scrutinee) (sig'.bindingsFor scrutinee') := by
    obtain ⟨fits, _, _, fitted, fitted', after⟩ :=
      TypeInfo.fit_akin (show AkinBindings known ∅ ∅ from rfl) akin.result scrutinees
    unfold bindingsFor
    rw [fitted, fitted']
    cases fits with
    | true => exact after
    | false => rfl
  have size : (sig.bindingsFor scrutinee).size = (sig'.bindingsFor scrutinee').size := by
    rw [← Dict.size_mapValues (Ty.erase known), bound, Dict.size_mapValues]
  unfold Signature.specialize
  dsimp only
  rw [size]
  split
  · exact akin
  · exact ⟨akin.name, akin.params.subst bound, akin.result.subst bound, akin.typeParams⟩

end Signature

theorem moreConcrete_related {known : Outlines} {best best' : Option Ty}
    (bests : Option.Rel (Ty.Akin known) best best') {candidate candidate' : Ty}
    (candidates : candidate.Akin known candidate') :
    Option.Rel (Ty.Akin known) (moreConcrete best candidate) (moreConcrete best' candidate') := by
  cases bests with
  | none => exact .some candidates
  | some best =>
      unfold moreConcrete
      dsimp only
      rw [best.concreteness, candidates.concreteness]
      split
      · exact .some candidates
      · exact .some best

namespace Environment

/-- Environments that give the same names akin types. -/
structure Akin (known : Outlines) (a b : Environment) : Prop where
  scopes : a.scopes.Akin known b.scopes
  types : a.types.table.Resembles (TypeInfo.Akin known) b.types.table
  functions : a.functions.table.Resembles
    (fun sig sig' => sig.Akin known sig' ∧ sig.isRooted = true) b.functions.table
  constructors : ∀ name, Option.Rel
    (fun constructor constructor' => constructor.signature.Akin known constructor'.signature)
    (a.constructors.get? name) (b.constructors.get? name)
  variantsOf : ∀ name, a.constructors.variantsOf name = b.constructors.variantsOf name

/-- Every name that is known is declared as it tells, and is not that of a scalar. -/
structure Told (known : Outlines) (env : Environment) : Prop where
  declared : ∀ {name outline}, known name = some outline →
    ∃ info, env.types.info? name = some info ∧ info.ty.isTold known = true ∧ info.ty.name = name
  named : ∀ {name outline}, known name = some outline → name ∉ primitiveNames

theorem Told.record {known : Outlines} {env : Environment} (told : Told known env) {name : String}
    {names : List String} (outlined : known name = some (.record names)) :
    ∃ info fields, env.types.info? name = some info ∧ info.ty.fields? = some fields ∧
      fields.map Prod.fst = names := by
  obtain ⟨info, held, tells, named⟩ := told.declared outlined
  refine ⟨info, ?_⟩
  generalize info.ty = ty at tells named
  cases ty with
  | record name' fields =>
      obtain rfl : name' = name := named
      have same := outlined.symm.trans (of_decide_eq_true tells)
      exact ⟨fields, held, rfl, (Outline.record.inj (Option.some.inj same)).symm⟩
  | sum name' variants =>
      obtain rfl : name' = name := named
      cases outlined.symm.trans (of_decide_eq_true tells)
  | _ => cases tells

theorem Told.sum {known : Outlines} {env : Environment} (told : Told known env) {name : String}
    (outlined : known name = some .sum) :
    ∃ info variants, env.types.info? name = some info ∧ info.ty.variants? = some variants := by
  obtain ⟨info, held, tells, named⟩ := told.declared outlined
  refine ⟨info, ?_⟩
  generalize info.ty = ty at tells named
  cases ty with
  | record name' fields =>
      obtain rfl : name' = name := named
      cases outlined.symm.trans (of_decide_eq_true tells)
  | sum name' variants => exact ⟨variants, held, rfl⟩
  | _ => cases tells

/-- What a type holds is no more than what its declaration holds, if its name tells it. -/
theorem Told.fields?_eq_none {known : Outlines} {env : Environment} (told : Told known env)
    {ty : Ty} (vouched : ty.IsVouched known) {info : TypeInfo}
    (held : env.types.info? ty.name = some info) (hidden : info.ty.fields? = none) :
    ty.fields? = none := by
  cases holds : ty.fields? with
  | none => rfl
  | some fields =>
      obtain ⟨info', fields', held', declared, -⟩ := told.record (vouched.record holds)
      obtain rfl := Option.some.inj (held.symm.trans held')
      cases hidden.symm.trans declared

theorem Told.variants?_eq_none {known : Outlines} {env : Environment} (told : Told known env)
    {ty : Ty} (vouched : ty.IsVouched known) {info : TypeInfo}
    (held : env.types.info? ty.name = some info) (hidden : info.ty.variants? = none) :
    ty.variants? = none := by
  cases holds : ty.variants? with
  | none => rfl
  | some variants =>
      obtain ⟨info', variants', held', declared⟩ := told.sum (vouched.sum holds)
      obtain rfl := Option.some.inj (held.symm.trans held')
      cases hidden.symm.trans declared

theorem memberType_eq (env : Environment) (object : Ty) (member : String) (origin : Origin) :
    env.memberType object member origin =
      if object.isAuto then pure .auto
      else
        match env.genericMember? object member <|> env.types.member? object.name member with
        | some ty => pure ty
        | none => object.ownMember member origin := by
  unfold memberType Ty.ownMember
  cases env.genericMember? object member <;> cases env.types.member? object.name member <;> rfl

theorem agrees_callMember {known : Outlines} {entry entry' : Entry Signature}
    (entries : Entry.Like (fun sig sig' => sig.Akin known sig' ∧ sig.isRooted = true) entry entry')
    (container member : String) {args args' : List Ty} (args_akin : Ty.AkinAll known args args')
    {expected expected' : Option Ty} (expecteds : Option.Rel (Ty.Akin known) expected expected')
    (origin : Origin) :
    Agrees (fun call call' => call.result.Akin known call'.result)
      (callMember entry container member args expected origin)
      (callMember entry' container member args' expected' origin) := by
  have solved := Instantiation.agrees_solve entries.value.1 entries.value.2 args_akin expecteds
    (ModulePath.memberKey container member) origin
  exact Agree.bind solved fun _ _ insts => .pure insts

section Akin

variable {known : Outlines} {a b : Environment} (akin : a.Akin known b)

include akin

/-! ### Names and calls -/

theorem info?_related (name : String) :
    Option.Rel (TypeInfo.Akin known) (a.types.info? name) (b.types.info? name) :=
  rel_map (akin.types.get? name) fun _ _ like => like.value

theorem entry?_related (name : String) :
    Option.Rel (Entry.Like fun sig sig' => sig.Akin known sig' ∧ sig.isRooted = true)
      (a.functions.entry? name) (b.functions.entry? name) :=
  akin.functions.get? name

theorem agrees_nameType (name : String) (origin : Origin) :
    Agrees (Ty.Akin known) (a.nameType name origin) (b.nameType name origin) := by
  unfold nameType FunctionTable.signature?
  generalize bound : a.scopes.lookup? name = ty
  generalize bound' : b.scopes.lookup? name = ty'
  cases bound ▸ bound' ▸ akin.scopes.lookup? name with
  | some tys => exact .pure tys
  | none =>
      generalize found : a.functions.entry? name = entry
      generalize found' : b.functions.entry? name = entry'
      cases found ▸ found' ▸ entry?_related akin name with
      | some like => exact .pure like.value.1.toTy
      | none =>
          dsimp only [Option.map_none]
          split
          · exact .pure rfl
          · exact .ite Iff.rfl (fun _ => .pure rfl) fun _ => Check.agrees_fail ..

theorem agrees_callByName (name : String) {args args' : List Ty}
    (args_akin : Ty.AkinAll known args args') {expected expected' : Option Ty}
    (expecteds : Option.Rel (Ty.Akin known) expected expected') (origin : Origin) :
    Agrees (fun call call' => call.result.Akin known call'.result)
      (a.callByName name args expected origin) (b.callByName name args' expected' origin) := by
  unfold callByName
  generalize bound : a.scopes.lookup? name = ty
  generalize bound' : b.scopes.lookup? name = ty'
  cases bound ▸ bound' ▸ akin.scopes.lookup? name with
  | some tys =>
      exact Agree.bind (Ty.agrees_callResult tys args_akin origin) fun _ _ result => .pure result
  | none =>
      dsimp only
      split
      · exact .pure rfl
      · generalize found : a.functions.entry? name = entry
        generalize found' : b.functions.entry? name = entry'
        cases found ▸ found' ▸ entry?_related akin name with
        | none => exact Check.agrees_fail ..
        | some like =>
            exact Agree.bind (Instantiation.agrees_solve like.value.1 like.value.2 args_akin
              expecteds name origin) fun _ _ result => .pure result

/-! ### Members -/

theorem member?_related (name member : String) :
    Option.Rel (Ty.Akin known) (a.types.member? name member) (b.types.member? name member) := by
  have tys : Option.Rel (fun ty ty' : Ty => Option.Rel (Ty.AkinFields known) ty.fields? ty'.fields?)
      (a.types.lookup? name) (b.types.lookup? name) :=
    rel_map (info?_related akin name) fun _ _ infos => infos.fields?
  exact rel_bind tys fun _ _ fields => rel_bind fields fun _ _ fields => fields.lookup member

theorem genericMember?_related (told : a.Told known) {object object' : Ty}
    (objects : object.Akin known object') (member : String) :
    Option.Rel (Ty.Akin known) (a.genericMember? object member)
      (b.genericMember? object' member) := by
  cases objects.view with
  | @generic base base' args args' bases args_akin =>
      have names : base.name = base'.name := objects.name
      unfold genericMember?
      show Option.Rel _ ((a.types.info? base.name).bind _) ((b.types.info? base'.name).bind _)
      rw [← names]
      generalize found : a.types.info? base.name = info
      generalize found' : b.types.info? base.name = info'
      cases found ▸ found' ▸ info?_related akin base.name with
      | none => exact .none
      | @some info info' infos =>
          have fields : Option.Rel (Ty.AkinFields known) (info.ty.fields? <|> base.fields?)
              (info'.ty.fields? <|> base'.fields?) := by
            generalize holds : info.ty.fields? = fields
            generalize holds' : info'.ty.fields? = fields'
            cases holds ▸ holds' ▸ infos.fields? with
            | some fields => exact .some fields
            | none =>
                have own := (Ty.heldBy_eraseBase base).both (bases ▸ Ty.heldBy_eraseBase base')
                  names
                rcases own with ⟨-, vouched, vouched'⟩ | ⟨fields, -⟩
                · rw [told.fields?_eq_none vouched found holds,
                    told.fields?_eq_none vouched' (names ▸ found) holds]
                  exact .none
                · exact fields
          show Option.Rel _ ((info.ty.fields? <|> base.fields?).bind _)
            ((info'.ty.fields? <|> base'.fields?).bind _)
          refine rel_bind fields fun declared declared' fields => ?_
          refine rel_bind (fields.lookup member) fun field field' tys => ?_
          exact .some (tys.subst (infos.bindingsOf args_akin))
  | nominal first second =>
      have none {ty : Ty} (env : Environment) (nominal : ty.isNominal = true) :
          env.genericMember? ty member = none := by
        cases ty <;> first | rfl | cases nominal
      rw [none a first, none b second]
      exact .none
  | _ => exact .none

theorem agrees_memberType (told : a.Told known) {object object' : Ty}
    (objects : object.Akin known object') (member : String) (origin : Origin) :
    Agrees (Ty.Akin known) (a.memberType object member origin)
      (b.memberType object' member origin) := by
  rw [memberType_eq, memberType_eq, objects.isAuto]
  refine .ite Iff.rfl (fun _ => .pure rfl) fun _ => ?_
  generalize found : a.genericMember? object member = ty
  generalize found' : b.genericMember? object' member = ty'
  cases found ▸ found' ▸ genericMember?_related akin told objects member with
  | some tys => exact .pure tys
  | none =>
      have members := member?_related akin object.name member
      rw [← objects.name]
      generalize declared : a.types.member? object.name member = ty at members ⊢
      generalize b.types.member? object.name member = ty' at members ⊢
      cases members with
      | some tys => exact .pure tys
      | none =>
          -- No declaration has the member, so a type that is told by its name has none either.
          have own := (Ty.heldBy_erase object).both (objects ▸ Ty.heldBy_erase object') objects.name
          rcases own with ⟨-, vouched, vouched'⟩ | ⟨fields, -⟩
          · rcases Ty.no_fields_or_record vouched vouched' objects member with
              fields | ⟨names, record, plain, notVar⟩
            · exact Ty.agrees_ownMember objects fields member origin
            · obtain ⟨info, fields, held, holds, rfl⟩ := told.record record
              have missing : member ∉ fields.map Prod.fst := by
                rw [← Ty.lookup_eq_none]
                simpa [TypeTable.member?, TypeTable.lookup?, held, holds] using declared
              have named := told.named record
              obtain ⟨cause, fails⟩ := Ty.ownMember_of_isVouched vouched record named missing plain
                notVar origin
              obtain ⟨cause', fails'⟩ := Ty.ownMember_of_isVouched vouched' (objects.name ▸ record)
                (objects.name ▸ named) missing (Ty.property?_eq objects member ▸ plain)
                (objects.isVar ▸ notVar) origin
              rw [fails, fails']
              exact Check.agrees_fail ..
          · exact Ty.agrees_ownMember objects fields member origin

/-! ### Record literals -/

theorem bestCandidate?_related {given given' : List (String × Ty)}
    (givens : Ty.AkinFields known given given') :
    Option.Rel (Ty.Akin known) (a.bestCandidate? given) (b.bestCandidate? given') := by
  have candidates : List.Forall₂ (Ty.Akin known)
      (a.types.toList.filterMap fun entry => entry.value.candidate? given)
      (b.types.toList.filterMap fun entry => entry.value.candidate? given') :=
    List.rel_filterMap (fun _ _ like => TypeInfo.candidate?_related like.value givens)
      akin.types.toList
  have folded : Relator.LiftFun (Option.Rel (Ty.Akin known))
      (Relator.LiftFun (Ty.Akin known) (Option.Rel (Ty.Akin known))) moreConcrete moreConcrete :=
    fun _ _ bests _ _ candidates => moreConcrete_related bests candidates
  exact List.rel_foldl folded .none candidates

theorem agrees_namedRecord (name : String) {given given' : List (String × Ty)}
    (givens : Ty.AkinFields known given given') (origin : Origin) :
    Agrees (Ty.Akin known) (a.namedRecord name given origin)
      (b.namedRecord name given' origin) := by
  unfold namedRecord
  generalize found : a.types.info? name = info
  generalize found' : b.types.info? name = info'
  cases found ▸ found' ▸ info?_related akin name with
  | none => exact Check.agrees_fail ..
  | @some info info' infos =>
      dsimp only
      generalize holds : info.ty.fields? = declared
      generalize holds' : info'.ty.fields? = declared'
      cases holds ▸ holds' ▸ infos.fields? with
      | none => exact Check.agrees_fail ..
      | @some declared declared' declareds =>
          dsimp only
          have extra := TypeInfo.find?_undeclared givens declareds
          generalize given.find? _ = found at extra ⊢
          generalize given'.find? _ = found' at extra ⊢
          rcases found with _ | extra₁ <;> rcases found' with _ | extra₂
          · have checked := TypeInfo.agrees_checkFields givens declareds
              (show AkinBindings known ∅ ∅ from rfl) name origin
            exact Agree.bind checked fun _ _ bound => .pure (infos.applied.subst bound)
          · cases extra
          · cases extra
          · exact Check.agrees_fail ..

theorem agrees_recordType {name : Option String} {given given' : List (String × Ty)}
    (givens : Ty.AkinFields known given given') (origin : Origin) :
    Agrees (Ty.Akin known) (a.recordType name given origin) (b.recordType name given' origin) := by
  cases name with
  | some name => exact agrees_namedRecord akin name givens origin
  | none =>
      refine .pure ?_
      generalize found : a.bestCandidate? given = best
      generalize found' : b.bestCandidate? given' = best'
      cases found ▸ found' ▸ bestCandidate?_related akin givens with
      | none => exact Ty.erase_record_congr known "record" (Ty.akinFields_iff.mp givens)
      | some best => exact best

/-! ### Patterns and matches -/

theorem isNullary_eq (name : String) :
    a.constructors.isNullary name = b.constructors.isNullary name := by
  unfold ConstructorTable.isNullary
  generalize found : a.constructors.get? name = constructor
  generalize found' : b.constructors.get? name = constructor'
  cases found ▸ found' ▸ akin.constructors name with
  | none => rfl
  | @some constructor constructor' sigs =>
      have params := sigs.params
      dsimp only
      generalize constructor.signature.params = params at params ⊢
      generalize constructor'.signature.params = params' at params ⊢
      cases params <;> rfl

theorem signatureFor?_related (name : String) {scrutinee scrutinee' : Ty}
    (scrutinees : scrutinee.Akin known scrutinee') :
    Option.Rel (Signature.Akin known) (a.constructors.signatureFor? name scrutinee)
      (b.constructors.signatureFor? name scrutinee') :=
  rel_map (akin.constructors name) fun _ _ sigs => sigs.specialize scrutinees

/-- The variants that a scrutinee can be one of have the same names. -/
theorem variantsFor?_names (told : a.Told known) {scrutinee scrutinee' : Ty}
    (scrutinees : scrutinee.Akin known scrutinee') :
    (Typed.variantsFor? a.types scrutinee).map (List.map Prod.fst) =
      (Typed.variantsFor? b.types scrutinee').map (List.map Prod.fst) := by
  unfold Typed.variantsFor? TypeTable.lookup?
  rw [← scrutinees.name]
  have own := (Ty.heldBy_erase scrutinee).both (scrutinees ▸ Ty.heldBy_erase scrutinee')
    scrutinees.name
  generalize found : a.types.info? scrutinee.name = info
  generalize found' : b.types.info? scrutinee.name = info'
  cases found ▸ found' ▸ info?_related akin scrutinee.name with
  | none =>
      rcases own with ⟨⟨outline, outlined⟩, -, -⟩ | ⟨-, names⟩
      · obtain ⟨info, held, -⟩ := told.declared outlined
        cases found.symm.trans held
      · exact names
  | @some info info' infos =>
      show ((info.ty.variants? <|> scrutinee.variants?).map _) =
        (info'.ty.variants? <|> scrutinee'.variants?).map _
      have declared := infos.variantNames
      generalize holds : info.ty.variants? = variants at declared ⊢
      generalize holds' : info'.ty.variants? = variants' at declared ⊢
      rcases variants with _ | variants <;> rcases variants' with _ | variants'
      · rcases own with ⟨-, vouched, vouched'⟩ | ⟨-, names⟩
        · rw [told.variants?_eq_none vouched found holds,
            told.variants?_eq_none vouched' (scrutinees.name ▸ found) holds]
        · exact names
      · cases declared
      · cases declared
      · exact declared

end Akin

end Environment

namespace Typed

variable {known : Outlines}

/-- Arms that take the same and come to akin types. -/
structure Arm.Akin (known : Outlines) (arm arm' : Arm) : Prop where
  catchAll : arm.pattern.isCatchAll = arm'.pattern.isCatchAll
  covered : arm.pattern.covered = arm'.pattern.covered
  body : arm.body.ty.Akin known arm'.body.ty

theorem agrees_checkArms {arms arms' : List Arm} (all : List.Forall₂ (Arm.Akin known) arms arms')
    {result result' : Ty} (results : result.Akin known result') (origin : Origin) (number : Nat) :
    Agrees (fun _ _ => True) (checkArms result origin number arms)
      (checkArms result' origin number arms') := by
  induction all generalizing number with
  | nil => exact .pure trivial
  | cons arm _ ih =>
      exact Agree.bind (Check.agrees_compatible arm.body results ..) fun _ _ _ => ih (number + 1)

theorem uncovered_eq {a b : Environment} (akin : a.Akin known b) (told : a.Told known)
    {scrutinee scrutinee' : Ty} (scrutinees : scrutinee.Akin known scrutinee')
    {arms arms' : List Arm} (all : List.Forall₂ (Arm.Akin known) arms arms') :
    uncovered a.types scrutinee (arms.map Arm.pattern) =
      uncovered b.types scrutinee' (arms'.map Arm.pattern) := by
  have catchAll : (arms.map Arm.pattern).any Pattern.isCatchAll =
      (arms'.map Arm.pattern).any Pattern.isCatchAll := by
    induction all with
    | nil => rfl
    | cons arm _ ih => simp only [List.map_cons, List.any_cons, arm.catchAll, ih]
  have covered : Pattern.coveredAll (arms.map Arm.pattern) =
      Pattern.coveredAll (arms'.map Arm.pattern) := by
    clear catchAll
    induction all with
    | nil => rfl
    | cons arm _ ih =>
        rw [List.map_cons, List.map_cons, Pattern.coveredAll, Pattern.coveredAll, arm.covered, ih]
  have names := Environment.variantsFor?_names akin told scrutinees
  unfold uncovered
  generalize variantsFor? a.types scrutinee = variants at names ⊢
  generalize variantsFor? b.types scrutinee' = variants' at names ⊢
  rcases variants with _ | variants <;> rcases variants' with _ | variants'
  · rfl
  · cases names
  · cases names
  · dsimp only
    rw [catchAll, covered, Option.some.inj names]

theorem agrees_matchType (coverage : Bool) {a b : Environment} (akin : a.Akin known b)
    (told : a.Told known) {scrutinee scrutinee' : Ty}
    (scrutinees : scrutinee.Akin known scrutinee') {arms arms' : List Arm}
    (all : List.Forall₂ (Arm.Akin known) arms arms') (origin : Origin) :
    Agrees (Ty.Akin known) (matchType coverage a.types scrutinee arms origin)
      (matchType coverage b.types scrutinee' arms' origin) := by
  have covered : Agrees (fun _ _ => True) (checkCoverage a.types scrutinee arms origin)
      (checkCoverage b.types scrutinee' arms' origin) := by
    unfold checkCoverage
    rw [uncovered_eq akin told scrutinees all]
    split
    · exact .pure trivial
    · exact Check.agrees_fail ..
  cases id all with
  | nil => exact Check.agrees_fail ..
  | cons arm rest =>
      refine Agree.bind (agrees_checkArms all arm.body origin 1) fun _ _ _ => ?_
      refine .ite Iff.rfl (fun _ => ?_) fun _ => .pure arm.body
      exact Agree.bind covered fun _ _ _ => .pure arm.body

end Typed

end ModuleTyping
