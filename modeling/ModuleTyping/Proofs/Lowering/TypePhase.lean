import Mathlib.Data.List.Nodup
import ModuleTyping.Proofs.Lowering.Registering

/-!
# Declaring types one after another

All types of a module are known by placeholders before the first of them is lowered. What a
type means is then worked out with what is known at that point: placeholders of types that
come later, and meanings of types that came before. `declareTypes` says this as a function,
and lowering the types comes to it (`lowersTypes`).

A placeholder and the meaning of a record, a sum or an abstract type are akin
(`placeholder_akin`, `placeholder_applied`). `Ready` says what holds of a state between two
declarations, so that declaring further types in akin states leaves akin states
(`Ready.declareTypes`).
-/

namespace ModuleTyping

open Meanings (BareAkin AppliedAkin WithinAkin)

/-! ### What declared types are told by -/

/-- A declaration without variables is erased by itself. -/
theorem Ty.erase_of_isTold {known : Outlines} {ty : Ty} (told : ty.isTold known = true)
    (closed : ty.hasVars = false) : ty.erase known = .abstract ty.name := by
  cases ty with
  | record name fields => rw [erase, told, show hasVarsFields fields = false from closed]; rfl
  | sum name variants => rw [erase, told, show hasVarsVariants variants = false from closed]; rfl
  | _ => cases told

namespace Source

/-- What a name that is declared so can be told to be. -/
def TypeBody.outline? : TypeBody → Option Outline
  | record fields => some (.record (fields.map Prod.fst))
  | sum _ => some .sum
  | _ => none

/-- The declaration is that of a synonym. -/
def TypeBody.isSynonym : TypeBody → Bool
  | synonym _ => true
  | _ => false

/-- What the declared names tell, apart from those of scalars. -/
structure Outlined (known : Outlines) (decls : List TypeDecl) : Prop where
  declared : ∀ decl ∈ decls, decl.name ∉ primitiveNames → known decl.name = decl.body.outline?
  only : ∀ {name outline}, known name = some outline → name ∉ primitiveNames ∧
    ∃ decl ∈ decls, decl.name = name ∧ decl.body.outline? = some outline

section Meaning

variable {known : Outlines} {T : Meanings} {params : List TypeParam}

theorem names_fieldMeanings {fields : List (String × WrittenType)} {given : List (String × Ty)}
    (means : fieldMeanings T params fields = some given) :
    given.map Prod.fst = fields.map Prod.fst := by
  induction fields generalizing given with
  | nil =>
      cases means
      rfl
  | cons field fields ih =>
      obtain ⟨first, -, means⟩ := Option.bind_eq_some_iff.mp means
      obtain ⟨rest, given_rest, rfl⟩ := Option.map_eq_some_iff.mp means
      rw [List.map_cons, List.map_cons, ih given_rest]

theorem names_variantMeanings {variants : List (String × List WrittenType)}
    {given : List (String × List Ty)} (means : variantMeanings T params variants = some given) :
    given.map Prod.fst = variants.map Prod.fst := by
  induction variants generalizing given with
  | nil =>
      cases means
      rfl
  | cons variant variants ih =>
      obtain ⟨first, -, means⟩ := Option.bind_eq_some_iff.mp means
      obtain ⟨rest, given_rest, rfl⟩ := Option.map_eq_some_iff.mp means
      rw [List.map_cons, List.map_cons, ih given_rest]

theorem areRooted_variantMeanings (rooted : T.Rooted)
    {variants : List (String × List WrittenType)} {given : List (String × List Ty)}
    (means : variantMeanings T params variants = some given) :
    ∀ variant ∈ given, Ty.areRooted variant.2 = true := by
  induction variants generalizing given with
  | nil =>
      cases means
      simp
  | cons variant variants ih =>
      obtain ⟨first, given_first, means⟩ := Option.bind_eq_some_iff.mp means
      obtain ⟨rest, given_rest, rfl⟩ := Option.map_eq_some_iff.mp means
      intro variant' listed
      rcases List.mem_cons.mp listed with rfl | listed
      · exact WrittenType.areRooted_meanings rooted _ given_first
      · exact ih given_rest variant' listed

namespace TypeDecl

variable {decl : TypeDecl} {info : TypeInfo}

/-- A declaration of a sum means a sum of what its variants mean. -/
theorem variants_meaning (isSum : decl.isSum = true) (means : decl.meaning T = some info) :
    ∃ variants variants', decl.body = .sum variants ∧
      variantMeanings T info.typeParams.reverse variants = some variants' ∧
      info.ty.variants? = some variants' := by
  obtain ⟨-, given, -⟩ := meaning_eq_some.mp means
  unfold TypeDecl.isSum at isSum
  cases body : decl.body with
  | sum variants =>
      rw [body] at given
      obtain ⟨variants', given, holds⟩ := Option.map_eq_some_iff.mp given
      rw [← holds]
      exact ⟨variants, variants', rfl, given, rfl⟩
  | _ =>
      rw [body] at isSum
      cases isSum

theorem fits_meaning (means : decl.meaning T = some info) : decl.Fits info := by
  obtain ⟨-, -, named⟩ := meaning_eq_some.mp means
  refine ⟨named, fun isSum => ?_⟩
  obtain ⟨variants, variants', body, given, holds⟩ := variants_meaning isSum means
  rw [TypeInfo.variantNames?, holds, constructorNames, body]
  exact congrArg some (names_variantMeanings given)

theorem variantsRooted_meaning (rooted : T.Rooted) (isSum : decl.isSum = true)
    (means : decl.meaning T = some info) : info.VariantsRooted := by
  intro held held_eq
  obtain ⟨variants, variants', -, given, holds⟩ := variants_meaning isSum means
  cases holds.symm.trans held_eq
  exact areRooted_variantMeanings rooted given

/-- What a record or a sum means is told by its name. -/
theorem told_meaning (means : decl.meaning T = some info) {outline : Outline}
    (outlined : decl.body.outline? = some outline) (tells : known decl.name = some outline) :
    info.ty.isTold known = true ∧ info.ty.name = decl.name := by
  obtain ⟨-, given, -⟩ := meaning_eq_some.mp means
  cases body : decl.body with
  | record fields =>
      rw [body] at given outlined
      obtain ⟨fields', given, holds⟩ := Option.map_eq_some_iff.mp given
      cases outlined
      rw [← holds, Ty.isTold, names_fieldMeanings given, tells]
      exact ⟨decide_eq_true rfl, rfl⟩
  | sum variants =>
      rw [body] at given outlined
      obtain ⟨variants', given, holds⟩ := Option.map_eq_some_iff.mp given
      cases outlined
      rw [← holds, Ty.isTold, tells]
      exact ⟨decide_eq_true rfl, rfl⟩
  | _ =>
      rw [body] at outlined
      cases outlined

/-- What a declaration means that is no synonym is told by its name, or it is just a name. -/
theorem told_or_abstract (means : decl.meaning T = some info)
    (declares : decl.body.isSynonym = false) (tells : known decl.name = decl.body.outline?) :
    info.ty.isTold known = true ∧ info.ty.name = decl.name ∨ info.ty = .abstract decl.name := by
  cases outlined : decl.body.outline? with
  | some outline => exact .inl (told_meaning means outlined (tells.trans outlined))
  | none =>
      obtain ⟨-, given, -⟩ := meaning_eq_some.mp means
      right
      cases body : decl.body with
      | abstract =>
          rw [body] at given
          exact (Option.some.inj given).symm
      | synonym target =>
          rw [body] at declares
          cases declares
      | _ =>
          rw [body] at outlined
          cases outlined

/-- By itself, a placeholder is akin to what it stands for, if that has no variables. -/
theorem placeholder_akin (means : decl.meaning T = some info)
    (declares : decl.body.isSynonym = false) (tells : known decl.name = decl.body.outline?)
    (closed : info.ty.hasVars = false) : decl.placeholder.ty.Akin known info.ty := by
  rcases told_or_abstract means declares tells with ⟨told, named⟩ | isAbstract
  · show (Ty.abstract decl.name).erase known = info.ty.erase known
    rw [Ty.erase_of_isTold told closed, named]
    rfl
  · rw [isAbstract]
    exact .refl _

/-- With type arguments, a placeholder is akin to what it stands for. -/
theorem placeholder_applied (means : decl.meaning T = some info)
    (declares : decl.body.isSynonym = false) (tells : known decl.name = decl.body.outline?)
    (normal : TypeParam.normalize decl.typeParams = .ok decl.typeParams) :
    decl.placeholder.typeParams = info.typeParams ∧
      decl.placeholder.ty.eraseBase known = info.ty.eraseBase known := by
  obtain ⟨normalized, -, -⟩ := meaning_eq_some.mp means
  refine ⟨Except.ok.inj (normal.symm.trans normalized), ?_⟩
  rcases told_or_abstract means declares tells with ⟨told, named⟩ | isAbstract
  · have erased : info.ty.eraseBase known = .abstract decl.name := by
      rw [Ty.eraseBase, if_pos told, named]
    rw [erased]
    rfl
  · rw [isAbstract]
    rfl

end TypeDecl

end Meaning

end Source

/-! ### Declaring -/

namespace LowerState

/-- The state after a type is declared as what it means, if it means anything. -/
def declareType (s : LowerState) (decl : Source.TypeDecl) : Option LowerState :=
  (decl.meaning s.env.types.info?).map (s.withDeclaration decl)

/-- The state after types are declared one after another. -/
def declareTypes (s : LowerState) : List Source.TypeDecl → Option LowerState
  | [] => some s
  | decl :: decls => (s.declareType decl).bind (·.declareTypes decls)

theorem declareTypes_append (s : LowerState) (decls decls' : List Source.TypeDecl) :
    s.declareTypes (decls ++ decls') = (s.declareTypes decls).bind (·.declareTypes decls') := by
  induction decls generalizing s with
  | nil => rfl
  | cons decl decls ih =>
      simp only [List.cons_append, declareTypes, ih, Option.bind_assoc]

end LowerState

namespace Lower

variable {c : Context} {s : LowerState}

/-- Lowering types declares them, or it fails because one of them means nothing. -/
theorem lowersTypes (standard : c.engine = .standard) (outside : s.typeParams = [])
    (decls : List Source.TypeDecl) :
    (∃ lowered t, s.declareTypes decls = some t ∧
        decls.mapM lowerTypeDecl c s = (.ok lowered, t)) ∨
      s.declareTypes decls = none ∧
        ∃ fault t, decls.mapM lowerTypeDecl c s = (.error fault, t) := by
  induction decls generalizing s with
  | nil => exact .inl ⟨[], s, rfl, rfl⟩
  | cons decl decls ih =>
      rw [List.mapM_cons, bind_apply, LowerState.declareTypes, LowerState.declareType]
      rcases declared_lowerTypeDecl (c := c) standard outside decl with
        ⟨info, lowered, means, ran⟩ | ⟨means, fault, t, ran⟩
      · rw [means, ran]
        have outside' : (s.withDeclaration decl info).typeParams = [] := by
          rw [LowerState.typeParams_withDeclaration, outside]
        dsimp only [Option.map_some, Option.bind_some]
        rw [bind_apply]
        rcases ih outside' with ⟨rest, t, declared, ran⟩ | ⟨refused, fault, t, ran⟩
        · rw [ran]
          exact .inl ⟨lowered :: rest, t, declared, rfl⟩
        · rw [ran]
          exact .inr ⟨refused, fault, t, rfl⟩
      · rw [means, ran]
        exact .inr ⟨rfl, fault, t, rfl⟩

end Lower

/-! ### Between two declarations -/

namespace Source

/-- Declarations of which none gives another one's variants another meaning, or takes a type
with type parameters for one without. -/
structure Orderly (decls : List TypeDecl) : Prop where
  distinct : (decls.map TypeDecl.name).Nodup
  apart : ∀ decl ∈ decls, ∀ other ∈ decls, decl.name ≠ other.name →
    ∀ name ∈ decl.constructorNames, name ∉ other.constructorNames
  proper : ∀ decl ∈ decls, decl.IsProper
  applied : ∀ decl ∈ decls, ∀ other ∈ decls, other.name ∈ decl.bareNames → other.typeParams = []

theorem Orderly.eq_of_name {decls : List TypeDecl} (orderly : Orderly decls) {decl other : TypeDecl}
    (listed : decl ∈ decls) (listed' : other ∈ decls) (same : decl.name = other.name) :
    decl = other :=
  List.inj_on_of_nodup_map orderly.distinct listed listed' same

/-- What the names of declared types tell, apart from those of scalars. -/
def outlines (decls : List TypeDecl) : Outlines := fun name =>
  if name ∈ primitiveNames then none
  else (decls.find? (·.name == name)).bind (·.body.outline?)

theorem Orderly.outlined {decls : List TypeDecl} (orderly : Orderly decls) :
    Outlined (outlines decls) decls where
  declared decl listed named := by
    have found : decls.find? (·.name == decl.name) = some decl := by
      cases found : decls.find? (·.name == decl.name) with
      | none => exact absurd (List.find?_eq_none.mp found decl listed) (by simp)
      | some other =>
          have same : other.name = decl.name := by simpa using List.find?_some found
          rw [orderly.eq_of_name (List.mem_of_find?_eq_some found) listed same]
    rw [outlines, if_neg named, found]
    rfl
  only {name outline} tells := by
    unfold outlines at tells
    split at tells
    · cases tells
    · next named =>
        obtain ⟨decl, found, outlined⟩ := Option.bind_eq_some_iff.mp tells
        have same : decl.name = name := by simpa using List.find?_some found
        exact ⟨named, decl, List.mem_of_find?_eq_some found, same, outlined⟩

end Source

open Source (Orderly Outlined)

namespace LowerState

variable {known : Outlines} {decls pending : List Source.TypeDecl} {decl : Source.TypeDecl}
variable {info : TypeInfo} {s : LowerState}

theorem info?_withDeclaration (types : s.env.types.Unaliased) (fits : decl.Fits info)
    (name : String) : (s.withDeclaration decl info).env.types.info? name =
      if name = decl.name then some info else s.env.types.info? name := by
  rw [types_withDeclaration, types.info?_register, fits.name]

theorem variantsOf_withDeclaration (fits : decl.Fits info) {name : String}
    (other : name ≠ decl.name) :
    (s.withDeclaration decl info).env.constructors.variantsOf name =
      s.env.constructors.variantsOf name := by
  have tables := congrArg Prod.fst (tables_withDeclaration s decl info)
  dsimp only at tables
  rw [tables, Source.TypeDecl.addTo]
  split
  · next isSum =>
      obtain ⟨variants, holds, -⟩ := Option.map_eq_some_iff.mp (fits.variants isSum)
      rw [ConstructorTable.variantsOf_registered holds, if_neg (fits.name ▸ other)]
  · rfl

/-- What holds of a state in which some of the types are declared and the others pending. -/
structure Ready (known : Outlines) (decls pending : List Source.TypeDecl) (s : LowerState) :
    Prop where
  types : s.env.types.Unaliased
  outside : s.typeParams = []
  listed : ∀ decl ∈ pending, decl ∈ decls
  distinct : (pending.map Source.TypeDecl.name).Nodup
  placeholders : ∀ decl ∈ pending, s.env.types.info? decl.name = some decl.placeholder
  told : ∀ decl ∈ decls, decl ∉ pending → ∀ outline, known decl.name = some outline →
    ∃ info, s.env.types.info? decl.name = some info ∧ info.ty.isTold known = true ∧
      info.ty.name = decl.name
  closed : ∀ decl ∈ decls, ∀ name ∈ decl.bareNames, Meanings.ClosedAt s.env.types.info? name
  kept : ∀ decl ∈ pending, decl.isSum = true → ∀ other ∈ decls, other.name ≠ decl.name →
    ∀ name ∈ s.env.constructors.variantsOf decl.name, name ∉ other.constructorNames

theorem Akin.rooted {t : LowerState} (akin : s.Akin known t) :
    Meanings.Rooted s.env.types.info? := by
  intro name info held
  have infos := Environment.info?_related akin.env name
  rw [held] at infos
  generalize t.env.types.info? name = info' at infos
  cases infos with
  | some infos => exact ⟨infos.rooted, infos.notVar⟩

/-- Declaring the next type keeps a state ready for the ones after it. -/
theorem Ready.withDeclaration (orderly : Orderly decls) (outlined : Outlined known decls)
    (ready : Ready known decls (decl :: pending) s)
    (means : decl.meaning s.env.types.info? = some info) :
    Ready known decls pending (s.withDeclaration decl info) := by
  have fits := Source.TypeDecl.fits_meaning means
  have member : decl ∈ decls := ready.listed decl List.mem_cons_self
  have later {other : Source.TypeDecl} (listed : other ∈ pending) : other.name ≠ decl.name := by
    intro same
    exact (List.nodup_cons.mp ready.distinct).1 (same ▸ List.mem_map_of_mem listed)
  have kept (name : String) := info?_withDeclaration ready.types fits name
  refine {
    types := by
      rw [types_withDeclaration]
      exact ready.types.register _ _
    outside := by rw [typeParams_withDeclaration, ready.outside]
    listed := fun other listed => ready.listed other (List.mem_cons_of_mem _ listed)
    distinct := (List.nodup_cons.mp ready.distinct).2
    placeholders := fun other listed => ?_
    told := fun other listed done outline tells => ?_
    closed := fun other listed name bare held found => ?_
    kept := fun other listed isSum another listed' different => ?_ }
  · rw [kept, if_neg (later listed)]
    exact ready.placeholders other (List.mem_cons_of_mem _ listed)
  · by_cases same : other.name = decl.name
    · obtain rfl := orderly.eq_of_name listed member same
      have outline_eq := outlined.declared other member (outlined.only tells).1
      rw [kept, if_pos rfl]
      exact ⟨info, rfl, Source.TypeDecl.told_meaning means (outline_eq.symm.trans tells) tells⟩
    · rw [kept, if_neg same]
      refine ready.told other listed (fun pending => ?_) outline tells
      rcases List.mem_cons.mp pending with rfl | pending
      · exact same rfl
      · exact done pending
  · rw [kept] at found
    split at found
    · next same =>
        cases found
        have plain := orderly.applied other listed decl member (same ▸ bare)
        exact Source.TypeDecl.hasVars_meaning plain (ready.closed decl member) means
    · exact ready.closed other listed name bare held found
  · rw [variantsOf_withDeclaration fits (later listed)]
    exact ready.kept other (List.mem_cons_of_mem _ listed) isSum another listed' different

/-- In akin states, the next type means akin types, and declaring it leaves akin states. -/
theorem Akin.declareType {t : LowerState} (akin : s.Akin known t) (proper : decl.IsProper) :
    Option.Rel (Akin known) (s.declareType decl) (t.declareType decl) := by
  have rooted := akin.rooted
  have infos : Option.Rel (TypeInfo.Akin known) (decl.meaning s.env.types.info?)
      (decl.meaning t.env.types.info?) :=
    Source.TypeDecl.meaning_akin proper rooted (fun name _ => Lower.info?_bareAkin akin name)
      (fun name _ => Lower.info?_appliedAkin akin name)
      (fun name _ => rel_imp (Environment.info?_related akin.env name)
        fun _ _ _ _ infos => infos.ty)
  unfold LowerState.declareType
  generalize means : decl.meaning s.env.types.info? = info at infos
  generalize means' : decl.meaning t.env.types.info? = info' at infos
  cases infos with
  | none => exact .none
  | some infos =>
      refine .some (akin.withDeclaration infos
        (fun isSum => Source.TypeDecl.variantsRooted_meaning rooted isSum means) ?_)
      rw [(Source.TypeDecl.fits_meaning means).name, (Source.TypeDecl.fits_meaning means').name]

/-- In akin states, declaring types leaves akin states, ready for the types after them. -/
theorem Ready.declareTypes (orderly : Orderly decls) (outlined : Outlined known decls)
    {first : List Source.TypeDecl} {t : LowerState} (akin : s.Akin known t)
    (ready : Ready known decls (first ++ pending) s) :
    Option.Rel (fun s t => s.Akin known t ∧ Ready known decls pending s)
      (s.declareTypes first) (t.declareTypes first) := by
  induction first generalizing s t with
  | nil => exact .some ⟨akin, ready⟩
  | cons decl first ih =>
      have proper := orderly.proper decl (ready.listed decl List.mem_cons_self)
      have declared := akin.declareType proper
      rw [LowerState.declareTypes, LowerState.declareTypes]
      generalize reached : s.declareType decl = after at declared
      generalize t.declareType decl = after' at declared
      cases declared with
      | none => exact .none
      | some akin =>
          obtain ⟨info, means, rfl⟩ := Option.map_eq_some_iff.mp reached
          exact ih akin (Ready.withDeclaration orderly outlined ready means)

theorem Ready.told_env (outlined : Outlined known decls) (ready : Ready known decls [] s) :
    s.env.Told known where
  declared tells := by
    obtain ⟨-, decl, listed, rfl, -⟩ := outlined.only tells
    exact ready.told decl listed List.not_mem_nil _ tells
  named tells := (outlined.only tells).1

/-! ### Before the first declaration -/

/-- What has to hold where types are declared: nothing that is known applies a variable, names
that stand by themselves mean types without variables, and a type that is declared again had
no variant that another type has now. -/
structure Hosts (decls : List Source.TypeDecl) (s : LowerState) : Prop where
  rooted : s.env.Rooted
  closed : ∀ decl ∈ decls, ∀ name ∈ decl.bareNames, name ∉ decls.map Source.TypeDecl.name →
    Meanings.ClosedAt s.env.types.info? name
  kept : ∀ decl ∈ decls, decl.isSum = true → ∀ other ∈ decls, other.name ≠ decl.name →
    ∀ name ∈ s.env.constructors.variantsOf decl.name, name ∉ other.constructorNames

/-- A pass that has seen nothing can take any types. -/
theorem hosts_of_fresh (fresh : s.env = {}) (decls : List Source.TypeDecl) :
    s.Hosts decls := by
  have scalar {name : String} {info : TypeInfo} (held : s.env.types.info? name = some info) :
      info.ty = .primitive name := by
    rw [fresh] at held
    exact TypeTable.info?_primitives held
  refine ⟨⟨fun name info held => ?_, fun name sig held => ?_⟩,
    fun decl listed name bare other info held => ?_, fun decl listed isSum other listed' different
      name old => ?_⟩
  · rw [scalar held]
    exact ⟨rfl, rfl⟩
  · rw [fresh] at held
    cases held
  · rw [scalar held]
    rfl
  · rw [fresh] at old
    cases old

theorem info?_withPlaceholders_of_not_mem (types : s.env.types.Unaliased) {name : String}
    (other : name ∉ decls.map Source.TypeDecl.name) :
    (s.withPlaceholders decls).env.types.info? name = s.env.types.info? name := by
  induction decls generalizing s with
  | nil => rfl
  | cons decl decls ih =>
      rw [List.map_cons, List.mem_cons, not_or] at other
      refine (ih (types.register _ _) other.2).trans ?_
      exact (types.info?_register _ _ name).trans (if_neg other.1)

theorem info?_withPlaceholders (types : s.env.types.Unaliased)
    (distinct : (decls.map Source.TypeDecl.name).Nodup) (listed : decl ∈ decls) :
    (s.withPlaceholders decls).env.types.info? decl.name = some decl.placeholder := by
  induction decls generalizing s with
  | nil => cases listed
  | cons first decls ih =>
      obtain ⟨fresh, distinct⟩ := List.nodup_cons.mp distinct
      rcases List.mem_cons.mp listed with rfl | listed
      · refine (info?_withPlaceholders_of_not_mem (types.register _ _) fresh).trans ?_
        exact (types.info?_register _ _ _).trans (if_pos rfl)
      · exact ih (types.register _ _) distinct listed

theorem unaliased_withPlaceholders (types : s.env.types.Unaliased)
    (decls : List Source.TypeDecl) : (s.withPlaceholders decls).env.types.Unaliased := by
  induction decls generalizing s with
  | nil => exact types
  | cons decl decls ih => exact ih (types.register _ _)

/-- Placeholders are types; nothing else changes. -/
theorem withPlaceholders_eq (s : LowerState) (decls : List Source.TypeDecl) :
    s.withPlaceholders decls =
      { s with env := { s.env with types := (s.withPlaceholders decls).env.types } } := by
  induction decls generalizing s with
  | nil => rfl
  | cons decl decls ih => exact ih _

theorem Hosts.rooted_withPlaceholders (hosts : s.Hosts decls) (types : s.env.types.Unaliased)
    (distinct : (pending.map Source.TypeDecl.name).Nodup) :
    (s.withPlaceholders pending).env.Rooted where
  types name info held := by
    by_cases declared : name ∈ pending.map Source.TypeDecl.name
    · obtain ⟨decl, listed, rfl⟩ := List.mem_map.mp declared
      rw [info?_withPlaceholders types distinct listed] at held
      cases held
      exact ⟨rfl, rfl⟩
    · rw [info?_withPlaceholders_of_not_mem types declared] at held
      exact hosts.rooted.types name info held
  functions := by
    rw [withPlaceholders_eq]
    exact hosts.rooted.functions

/-- Once all types have placeholders, the first of them can be declared. -/
theorem Hosts.ready (hosts : s.Hosts decls) (orderly : Orderly decls)
    (types : s.env.types.Unaliased) (outside : s.typeParams = []) (perm : decls.Perm pending) :
    Ready known decls pending (s.withPlaceholders pending) := by
  have names := perm.map Source.TypeDecl.name
  have distinct := names.nodup_iff.mp orderly.distinct
  exact {
    types := unaliased_withPlaceholders types pending
    outside := by
      rw [withPlaceholders_eq]
      exact outside
    listed := fun _ listed => perm.mem_iff.mpr listed
    distinct := distinct
    placeholders := fun _ listed => info?_withPlaceholders types distinct listed
    told := fun _ listed done => absurd (perm.mem_iff.mp listed) done
    closed := fun decl listed name bare info held => by
      by_cases declared : name ∈ pending.map Source.TypeDecl.name
      · obtain ⟨other, listed, rfl⟩ := List.mem_map.mp declared
        rw [info?_withPlaceholders types distinct listed] at held
        cases held
        rfl
      · rw [info?_withPlaceholders_of_not_mem types declared] at held
        exact hosts.closed decl listed name bare (declared ∘ names.mem_iff.mp) info held
    kept := fun decl listed isSum => by
      rw [withPlaceholders_eq]
      exact hosts.kept decl (perm.mem_iff.mpr listed) isSum }

end LowerState

end ModuleTyping
