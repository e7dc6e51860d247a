import Mathlib.Data.List.Induction
import Mathlib.Data.List.Pairwise
import ModuleTyping.Proofs.Lowering.Exports
import ModuleTyping.Proofs.Lowering.TypePhase

/-!
# The order of type declarations

A type may mention types that are declared after it, because all types of a module are known
by their names before the first one is lowered. What it makes of such a name is settled when
it is lowered itself: a record with a field of a type that comes later refers to that type by
name, which is as good as the type once that is declared, but a synonym of a type that comes
later stands for the bare name for good (`synonym_of_later_type_refused`).

Two neighbours can be exchanged if what one of them makes of the other is the same before and
after the other one is declared (`Source.TypeDecl.Exchangeable`), since the states that they
leave are akin then. A permutation is made of such exchanges if any two declarations that
change places are exchangeable, and then it does not change whether the module is accepted
(`type_order_irrelevant`).
-/

namespace ModuleTyping

open Meanings (BareAkin AppliedAkin WithinAkin)
open Source (Orderly Outlined)

/-! ### Exchanging neighbours -/

section Neighbours

variable {α : Type} {P : List α → Prop} {may : α → α → Prop}

/-- An element comes to the front past elements that it may be exchanged with. -/
theorem front_of_exchanges
    (exchange : ∀ before a b after, may a b →
      P (before ++ a :: b :: after) → P (before ++ b :: a :: after))
    {before : List α} {a : α} (after : List α) (free : ∀ b ∈ before, may b a)
    (holds : P (before ++ a :: after)) : P (a :: (before ++ after)) := by
  induction before using List.reverseRecOn generalizing after with
  | nil => exact holds
  | append_singleton before b ih =>
      rw [List.append_assoc] at holds ⊢
      refine ih (b :: after) (fun other listed => free other (List.mem_append_left _ listed)) ?_
      exact exchange before b a after (free b (by simp)) holds

/-- What exchanges of neighbours keep is kept by a permutation, if any two elements that it
puts in the other order may be exchanged. -/
theorem of_perm_of_exchanges {l l' : List α} (perm : l.Perm l')
    (moved : ∀ a b, [a, b].Sublist l → [b, a].Sublist l' → may a b)
    (exchange : ∀ before a b after, may a b →
      P (before ++ a :: b :: after) → P (before ++ b :: a :: after))
    (holds : P l) : P l' := by
  induction l' generalizing l P with
  | nil => exact perm.eq_nil ▸ holds
  | cons a rest ih =>
      obtain ⟨before, after, rfl⟩ := List.append_of_mem (perm.mem_iff.mpr List.mem_cons_self)
      have perm' : (before ++ after).Perm rest := (List.perm_middle.symm.trans perm).cons_inv
      have kept : (before ++ after).Sublist (before ++ a :: after) :=
        (List.sublist_cons_self a after).append_left before
      have front : P (a :: (before ++ after)) := by
        refine front_of_exchanges exchange after (fun b listed => ?_) holds
        refine moved b a ?_ ?_
        · exact (List.singleton_sublist.mpr listed).append
            (List.singleton_sublist.mpr List.mem_cons_self)
        · refine .cons_cons a (List.singleton_sublist.mpr ?_)
          exact perm'.mem_iff.mp (List.mem_append_left _ listed)
      refine ih (P := fun l => P (a :: l)) perm' (fun b b' before after => ?_) ?_ front
      · exact moved b b' (before.trans kept) (after.cons a)
      · intro before b b' after exchangeable
        exact exchange (a :: before) b b' after exchangeable

end Neighbours

/-! ### Declarations that can be exchanged -/

namespace Source.TypeDecl

/-- The names that stand in a declaration, its own type parameters apart. -/
def mentions (decl : TypeDecl) : List String :=
  decl.bareNames ++ decl.appliedNames

/-- What a declaration makes of another one that it mentions does not depend on which of them
comes first: the other is no synonym, this one is no synonym of it, the constraints of its
type parameters are written as they are kept, and it does not have the name of a scalar. -/
structure Tolerates (decl other : TypeDecl) : Prop where
  declares : other.body.isSynonym = false
  head : decl.body.head? ≠ some other.name
  normal : TypeParam.normalize other.typeParams = .ok other.typeParams
  named : other.name ∉ primitiveNames

/-- Neither declaration mentions the other without tolerating it. -/
def Exchangeable (decl other : TypeDecl) : Prop :=
  (other.name ∈ decl.mentions → decl.Tolerates other) ∧
    (decl.name ∈ other.mentions → other.Tolerates decl)

/-- What a declaration mentions stands for akin types in both. -/
structure Unaffected (known : Outlines) (decl : TypeDecl) (T T' : Meanings) : Prop where
  bare : ∀ name ∈ decl.bareNames, BareAkin known T T' name
  applied : ∀ name ∈ decl.appliedNames, AppliedAkin known T T' name
  head : ∀ name, decl.body.head? = some name → WithinAkin known T T' name

variable {known : Outlines} {decl other : TypeDecl} {T T' : Meanings}

theorem Unaffected.symm (unaffected : Unaffected known decl T T') :
    Unaffected known decl T' T := by
  refine ⟨fun name bare => ?_, fun name applied => ?_, fun name head => ?_⟩
  · exact rel_symm (unaffected.bare name bare) fun _ _ => Eq.symm
  · exact rel_symm (unaffected.applied name applied) fun _ _ same => ⟨same.1.symm, same.2.symm⟩
  · exact rel_symm (unaffected.head name head) fun _ _ => Eq.symm

theorem Unaffected.meaning_akin (unaffected : Unaffected known decl T T') (proper : decl.IsProper)
    (rooted : T.Rooted) : Option.Rel (TypeInfo.Akin known) (decl.meaning T) (decl.meaning T') :=
  TypeDecl.meaning_akin proper rooted unaffected.bare unaffected.applied unaffected.head

/-- The name that a synonym stands for is one that it mentions. -/
theorem mem_mentions_of_head? (proper : decl.IsProper) {name : String}
    (head : decl.body.head? = some name) : name ∈ decl.mentions := by
  have written {target : WrittenType} (synonym : decl.body = .synonym target) :
      decl.body.written = [target] := by
    rw [synonym, TypeBody.written]
  cases body : decl.body with
  | synonym target =>
      rw [body] at head
      cases target with
      | named stands =>
          obtain rfl := Option.some.inj head
          have own := proper stands body
          refine List.mem_append_left _ (List.mem_filter.mpr ⟨?_, by simpa using own⟩)
          rw [written body]
          exact List.mem_cons_self
      | generic stands args =>
          obtain rfl := Option.some.inj head
          refine List.mem_append_right _ ?_
          rw [appliedNames, written body]
          exact List.mem_cons_self
      | _ => cases head
  | _ =>
      rw [body] at head
      cases head

end Source.TypeDecl

namespace LowerState

variable {known : Outlines} {decls pending : List Source.TypeDecl}
variable {decl other : Source.TypeDecl} {s : LowerState}

/-- A declaration is not affected by the declaration of another one that it tolerates. -/
theorem Ready.unaffected (orderly : Orderly decls) (outlined : Outlined known decls)
    (ready : Ready known decls pending s) (listed : decl ∈ decls) (awaited : other ∈ pending)
    (tolerates : other.name ∈ decl.mentions → decl.Tolerates other) {info : TypeInfo}
    (means : other.meaning s.env.types.info? = some info) :
    decl.Unaffected known s.env.types.info? (s.withDeclaration other info).env.types.info? := by
  have member := ready.listed other awaited
  have fits := Source.TypeDecl.fits_meaning means
  have before := ready.placeholders other awaited
  have after : (s.withDeclaration other info).env.types.info? other.name = some info := by
    rw [info?_withDeclaration ready.types fits, if_pos rfl]
  have elsewhere {name : String} (different : name ≠ other.name) :
      (s.withDeclaration other info).env.types.info? name = s.env.types.info? name := by
    rw [info?_withDeclaration ready.types fits, if_neg different]
  refine ⟨fun name bare => ?_, fun name applied => ?_, fun name head => ?_⟩
  · unfold BareAkin
    by_cases same : name = other.name
    · subst same
      have tolerated := tolerates (List.mem_append_left _ bare)
      have plain := orderly.applied decl listed other member bare
      rw [before, after]
      refine .some (Source.TypeDecl.placeholder_akin means tolerated.declares ?_ ?_)
      · exact outlined.declared other member tolerated.named
      · exact Source.TypeDecl.hasVars_meaning plain (ready.closed other member) means
    · rw [elsewhere same]
      exact rel_refl (fun _ => .refl _) _
  · unfold AppliedAkin
    by_cases same : name = other.name
    · subst same
      have tolerated := tolerates (List.mem_append_right _ applied)
      rw [before, after]
      exact .some (Source.TypeDecl.placeholder_applied means tolerated.declares
        (outlined.declared other member tolerated.named) tolerated.normal)
    · rw [elsewhere same]
      exact rel_refl (fun _ => ⟨rfl, rfl⟩) _
  · unfold WithinAkin
    rw [elsewhere]
    · refine rel_refl (fun _ => ?_) _
      rfl
    · rintro rfl
      have mentioned := Source.TypeDecl.mem_mentions_of_head? (orderly.proper decl listed) head
      exact (tolerates mentioned).head head

theorem declareTypes_pair (s : LowerState) (decl other : Source.TypeDecl) :
    s.declareTypes [decl, other] = (decl.meaning s.env.types.info?).bind fun info =>
      (other.meaning (s.withDeclaration decl info).env.types.info?).map
        ((s.withDeclaration decl info).withDeclaration other) := by
  simp only [declareTypes, declareType, Option.map_eq_bind, Option.bind_assoc, Option.bind_some,
    Function.comp_def]

/-- Two types that mean akin types either way may be declared in either order. -/
theorem Ready.akin_of_exchange (orderly : Orderly decls)
    (ready : Ready known decls (decl :: other :: pending) s) (akin : s.Akin known s)
    {info info' other_info other_info' : TypeInfo}
    (means : decl.meaning s.env.types.info? = some info)
    (other_means : other.meaning (s.withDeclaration decl info).env.types.info? = some other_info)
    (infos : info.Akin known info') (other_infos : other_info.Akin known other_info')
    (fits : decl.Fits info') (other_fits : other.Fits other_info') :
    ((s.withDeclaration decl info).withDeclaration other other_info).Akin known
      ((s.withDeclaration other other_info').withDeclaration decl info') := by
  have listed := ready.listed decl List.mem_cons_self
  have awaited : other ∈ decl :: other :: pending := List.mem_cons_of_mem _ List.mem_cons_self
  have listed' := ready.listed other awaited
  have different : decl.name ≠ other.name := by
    intro same
    exact (List.nodup_cons.mp ready.distinct).1 (same ▸ List.mem_cons_self)
  have declared : (s.withDeclaration decl info).Akin known (s.withDeclaration decl info') := by
    refine akin.withDeclaration infos (fun isSum => ?_) ?_
    · exact Source.TypeDecl.variantsRooted_meaning akin.rooted isSum means
    · rw [(Source.TypeDecl.fits_meaning means).name, fits.name]
  have both : ((s.withDeclaration decl info).withDeclaration other other_info).Akin known
      ((s.withDeclaration decl info').withDeclaration other other_info') := by
    refine declared.withDeclaration other_infos (fun isSum => ?_) ?_
    · exact Source.TypeDecl.variantsRooted_meaning declared.rooted isSum other_means
    · rw [(Source.TypeDecl.fits_meaning other_means).name, other_fits.name]
  refine both.shuffled (withDeclaration_comm akin.env.types.reachable akin.env.functions.reachable
    fits other_fits different ?_ (fun isSum => ?_) (fun isSum => ?_))
  · exact orderly.apart decl listed other listed' different
  · exact ready.kept decl List.mem_cons_self isSum other listed' different.symm
  · exact ready.kept other awaited isSum decl listed different

/-- Two declarations that tolerate each other may be made in either order. -/
theorem Ready.exchange (orderly : Orderly decls) (outlined : Outlined known decls)
    (ready : Ready known decls (decl :: other :: pending) s) (akin : s.Akin known s)
    (exchangeable : decl.Exchangeable other) :
    Option.Rel (fun s t => s.Akin known t ∧ Ready known decls pending s)
      (s.declareTypes [decl, other]) (s.declareTypes [other, decl]) := by
  have listed := ready.listed decl List.mem_cons_self
  have listed' := ready.listed other (List.mem_cons_of_mem _ List.mem_cons_self)
  -- Each declaration means akin types before and after the other one is made.
  have akin_first {info : TypeInfo} (means : other.meaning s.env.types.info? = some info) :
      Option.Rel (TypeInfo.Akin known) (decl.meaning s.env.types.info?)
        (decl.meaning (s.withDeclaration other info).env.types.info?) := by
    refine Source.TypeDecl.Unaffected.meaning_akin ?_ (orderly.proper decl listed) akin.rooted
    exact ready.unaffected orderly outlined listed (List.mem_cons_of_mem _ List.mem_cons_self)
      exchangeable.1 means
  have akin_second {info : TypeInfo} (means : decl.meaning s.env.types.info? = some info) :
      Option.Rel (TypeInfo.Akin known)
        (other.meaning (s.withDeclaration decl info).env.types.info?)
        (other.meaning s.env.types.info?) := by
    have declared := Akin.declareType akin (orderly.proper decl listed)
    rw [LowerState.declareType, means] at declared
    cases declared with
    | some after =>
        refine Source.TypeDecl.Unaffected.meaning_akin ?_ (orderly.proper other listed')
          after.rooted
        exact (ready.unaffected orderly outlined listed' List.mem_cons_self exchangeable.2
          means).symm
  rw [declareTypes_pair, declareTypes_pair]
  cases means : decl.meaning s.env.types.info? with
  | none =>
      cases other_means : other.meaning s.env.types.info? with
      | none => exact .none
      | some other_info =>
          have nothing := akin_first other_means
          rw [means] at nothing
          rw [Option.bind_none, Option.bind_some]
          generalize decl.meaning (s.withDeclaration other other_info).env.types.info? = given
            at nothing ⊢
          cases nothing
          exact .none
  | some info =>
      have others := akin_second means
      rw [Option.bind_some]
      generalize other_means : other.meaning (s.withDeclaration decl info).env.types.info? = given
        at others ⊢
      generalize other_means' : other.meaning s.env.types.info? = given' at others ⊢
      cases others with
      | none => exact .none
      | @some other_info other_info' other_infos =>
          have infos := akin_first other_means'
          rw [means] at infos
          rw [Option.bind_some]
          generalize means' :
            decl.meaning (s.withDeclaration other other_info').env.types.info? = given at infos ⊢
          cases infos with
          | some infos =>
              refine .some ⟨?_, ?_⟩
              · exact ready.akin_of_exchange orderly akin means other_means infos other_infos
                  (Source.TypeDecl.fits_meaning means') (Source.TypeDecl.fits_meaning other_means')
              · exact (ready.withDeclaration orderly outlined means).withDeclaration orderly
                  outlined other_means

/-- In akin states, declaring the rest of the types leaves akin states, in which every name
that is known is told. -/
theorem Ready.declareTypes_told (orderly : Orderly decls) (outlined : Outlined known decls)
    {t : LowerState} (ready : Ready known decls pending s) (akin : s.Akin known t) :
    Option.Rel (fun s t => s.Akin known t ∧ s.env.Told known) (s.declareTypes pending)
      (t.declareTypes pending) := by
  rw [← List.append_nil pending] at ready
  refine rel_imp (ready.declareTypes orderly outlined akin) ?_
  rintro s t - - ⟨akin, ready⟩
  exact ⟨akin, ready.told_env outlined⟩

/-- Two neighbours that tolerate each other may be declared in either order. -/
theorem Ready.declareTypes_exchange (orderly : Orderly decls) (outlined : Outlined known decls)
    {before after : List Source.TypeDecl}
    (ready : Ready known decls (before ++ decl :: other :: after) s) (akin : s.Akin known s)
    (exchangeable : decl.Exchangeable other) :
    Option.Rel (fun s t => s.Akin known t ∧ s.env.Told known)
      (s.declareTypes (before ++ decl :: other :: after))
      (s.declareTypes (before ++ other :: decl :: after)) := by
  have reached := ready.declareTypes orderly outlined akin
  rw [declareTypes_append, declareTypes_append]
  generalize s.declareTypes before = middle at reached
  cases middle with
  | none => exact .none
  | some r =>
      obtain ⟨akin, ready⟩ : r.Akin known r ∧ Ready known decls (decl :: other :: after) r := by
        cases reached with
        | some reached => exact reached
      have split (first second : Source.TypeDecl) : r.declareTypes (first :: second :: after) =
          (r.declareTypes [first, second]).bind (·.declareTypes after) :=
        declareTypes_append r [first, second] after
      rw [Option.bind_some, Option.bind_some, split, split]
      refine rel_bind (ready.exchange orderly outlined akin exchangeable) ?_
      rintro s t ⟨akin, ready⟩
      exact ready.declareTypes_told orderly outlined akin

/-! ### Placeholders -/

theorem Shuffled.refl (types : s.env.types.table.Reachable)
    (functions : s.env.functions.table.Reachable) : s.Shuffled s :=
  ⟨⟨rfl, .refl types, .refl functions⟩, rfl, rfl, rfl, rfl⟩

theorem Shuffled.withType {t : LowerState} (same : s.Shuffled t) (decl : Source.TypeDecl)
    (info : TypeInfo) : (s.withType decl info).Shuffled (t.withType decl info) := by
  have regs : s.registrationOf decl = t.registrationOf decl := by
    rw [registrationOf, registrationOf, same.moduleName, same.namespaceName]
  have types : (s.env.types.table.register info.name info (s.registrationOf decl)).Reordered
      (t.env.types.table.register info.name info (t.registrationOf decl)) := by
    rw [regs]
    exact same.env.types.register _ _ _
  exact { same with env := { same.env with types } }

theorem Shuffled.withPlaceholders {t : LowerState} (same : s.Shuffled t)
    (decls : List Source.TypeDecl) :
    (s.withPlaceholders decls).Shuffled (t.withPlaceholders decls) := by
  induction decls generalizing s t with
  | nil => exact same
  | cons decl decls ih => exact ih (same.withType decl decl.placeholder)

/-- Types may be made known in either order. -/
theorem withPlaceholders_exchange (types : s.env.types.Unaliased)
    (functions : s.env.functions.table.Reachable) (different : decl.name ≠ other.name)
    (before after : List Source.TypeDecl) :
    (s.withPlaceholders (before ++ decl :: other :: after)).Shuffled
      (s.withPlaceholders (before ++ other :: decl :: after)) := by
  have split (decls : List Source.TypeDecl) :
      s.withPlaceholders (before ++ decls) = (s.withPlaceholders before).withPlaceholders decls :=
    List.foldl_append
  rw [split, split]
  have types' := (unaliased_withPlaceholders types before).reachable
  have functions' : (s.withPlaceholders before).env.functions.table.Reachable := by
    rw [withPlaceholders_eq]
    exact functions
  have neighbours : (((s.withPlaceholders before).withType decl decl.placeholder).withType other
        other.placeholder).Shuffled
      (((s.withPlaceholders before).withType other other.placeholder).withType decl
        decl.placeholder) :=
    withType_comm types' functions' different
  exact neighbours.withPlaceholders after

end LowerState

/-! ### Functions beside types -/

namespace Lower

variable {known : Outlines} {c : Context} {functions : List Source.Function}
variable {decls decls' : List Source.TypeDecl} {s t : LowerState}

/-- The types can be declared, and then the functions are lowered. -/
def Admits (c : Context) (functions : List Source.Function) (s : LowerState)
    (decls : List Source.TypeDecl) : Prop :=
  ∃ t, s.declareTypes decls = some t ∧ ∃ lowered, Yields c t (lowerFunctions functions) lowered

theorem admits_iff_of_akin (standard : c.engine = .standard)
    (related : Option.Rel (fun s t => s.Akin known t ∧ s.env.Told known) (s.declareTypes decls)
      (t.declareTypes decls')) :
    Admits c functions s decls ↔ Admits c functions t decls' := by
  unfold Admits Yields
  generalize s.declareTypes decls = reached at related
  generalize t.declareTypes decls' = reached' at related
  cases related with
  | none => simp
  | some states =>
      have lowered := ((agrees_lowerFunctions functions).agree standard).run states
      simpa using lowered.ok_iff

section Exchange

variable (standard : c.engine = .standard) (orderly : Orderly decls)
  (outlined : Outlined known decls) (hosts : s.Hosts decls) (types : s.env.types.Unaliased)
  (atRest : s.AtRest)

include standard orderly outlined hosts types atRest

/-- Two neighbours that tolerate each other may stand in either order. -/
theorem admits_exchange {before after : List Source.TypeDecl} {decl other : Source.TypeDecl}
    (perm : decls.Perm (before ++ decl :: other :: after))
    (exchangeable : decl.Exchangeable other) :
    Admits c functions (s.withPlaceholders (before ++ decl :: other :: after))
        (before ++ decl :: other :: after) ↔
      Admits c functions (s.withPlaceholders (before ++ other :: decl :: after))
        (before ++ other :: decl :: after) := by
  have perm' : decls.Perm (before ++ other :: decl :: after) :=
    perm.trans ((List.Perm.swap other decl after).append_left before)
  have ready : LowerState.Ready known decls _ _ :=
    hosts.ready orderly types atRest.typeParams perm
  have ready' : LowerState.Ready known decls _ _ :=
    hosts.ready orderly types atRest.typeParams perm'
  have different : decl.name ≠ other.name := by
    have neighbours := ready.distinct.sublist ((List.sublist_append_right before _).map _)
    intro same
    exact (List.nodup_cons.mp neighbours).1 (same ▸ List.mem_cons_self)
  have rooted := hosts.rooted_withPlaceholders types ready.distinct
  have rooted' := hosts.rooted_withPlaceholders types ready'.distinct
  have placed := LowerState.withPlaceholders_exchange types atRest.env.functions different.symm
    before after
  have same := LowerState.Shuffled.refl placed.env.types.reachable'
    placed.env.tables.functions.reachable'
  -- First the types are declared in the other order, then they are made known so.
  calc Admits c functions (s.withPlaceholders (before ++ decl :: other :: after))
        (before ++ decl :: other :: after)
    _ ↔ Admits c functions (s.withPlaceholders (before ++ decl :: other :: after))
        (before ++ other :: decl :: after) :=
      admits_iff_of_akin standard
        (ready.declareTypes_exchange orderly outlined (same.akin rooted) exchangeable)
    _ ↔ Admits c functions (s.withPlaceholders (before ++ other :: decl :: after))
        (before ++ other :: decl :: after) :=
      (admits_iff_of_akin standard
        (ready'.declareTypes_told orderly outlined (placed.akin rooted'))).symm

/-- The types may be permuted, if any two of them that change places tolerate each other. -/
theorem admits_perm (perm : decls.Perm decls')
    (moved : ∀ decl other, [decl, other].Sublist decls → [other, decl].Sublist decls' →
      decl.Exchangeable other) :
    Admits c functions (s.withPlaceholders decls) decls ↔
      Admits c functions (s.withPlaceholders decls') decls' := by
  have kept : decls.Perm decls' ∧ (Admits c functions (s.withPlaceholders decls) decls ↔
      Admits c functions (s.withPlaceholders decls') decls') := by
    refine of_perm_of_exchanges (P := fun l => decls.Perm l ∧
      (Admits c functions (s.withPlaceholders decls) decls ↔
        Admits c functions (s.withPlaceholders l) l)) perm moved ?_ ⟨.refl _, .rfl⟩
    rintro before decl other after exchangeable ⟨perm, same⟩
    refine ⟨perm.trans ((List.Perm.swap other decl after).append_left before), same.trans ?_⟩
    exact admits_exchange standard orderly outlined hosts types atRest perm exchangeable
  exact kept.2

end Exchange

/-! ### Modules -/

/-- Enters a module and makes its imports known. -/
def arrive (m : Source.Module) : Lower Unit := do
  enterModule m.name
  m.imports.forM processImport

theorem lowerTypes_eq (m : Source.Module) :
    lowerTypes m = (do
      arrive m
      m.types.forM registerPlaceholder
      m.types.mapM lowerTypeDecl) := by
  simp only [lowerTypes, arrive, bind_assoc]

theorem maintains_arrive {P : LowerState → Prop} (lasting : LowerState.Lasting P)
    (m : Source.Module) : Maintains P (arrive m) :=
  (maintains_enterModule lasting m.name).bind fun _ => .forM (maintains_processImport lasting) _

/-- A module is accepted if its imports are, its types can be declared then, and its functions
are lowered. -/
theorem accepted_iff_admits (standard : c.engine = .standard) (atRest : s.AtRest)
    (m : Source.Module) : (∃ lowered, Yields c s (lowerModule m) lowered) ↔
      ∃ entry, arrive m c s = (.ok (), entry) ∧
        Admits c m.functions (entry.withPlaceholders m.types) m.types := by
  have arrived := maintains_arrive LowerState.lasting_atRest m c standard s atRest
  rcases ran : arrive m c s with ⟨fault | _, entry⟩
  · have refused : lowerTypes m c s = (.error fault, entry) := by
      rw [lowerTypes_eq, bind_apply, ran]
    constructor
    · rintro ⟨lowered, accepted⟩
      obtain ⟨⟨types, beside⟩, -⟩ := functions_of_accepted accepted
      rw [Yields, refused] at beside
      cases beside
    · rintro ⟨_, ⟨⟩, _⟩
  · rw [ran] at arrived
    have outside : (entry.withPlaceholders m.types).typeParams = [] := by
      rw [LowerState.withPlaceholders_eq]
      exact arrived.typeParams
    have types : lowerTypes m c s =
        m.types.mapM lowerTypeDecl c (entry.withPlaceholders m.types) := by
      rw [lowerTypes_eq, bind_apply, ran]
      dsimp only
      rw [bind_apply, forM_registerPlaceholder]
    constructor
    · rintro ⟨lowered, accepted⟩
      obtain ⟨⟨lowered_types, beside⟩, functions⟩ := functions_of_accepted accepted
      rw [types] at functions
      rw [Yields, types] at beside
      refine ⟨entry, rfl, ?_⟩
      rcases lowersTypes standard outside m.types with
        ⟨_, t, declared, lowers⟩ | ⟨-, fault, t, lowers⟩
      · rw [lowers] at functions
        exact ⟨t, declared, _, functions⟩
      · rw [lowers] at beside
        cases beside
    · rintro ⟨_, ⟨⟩, t, declared, functions, lowered⟩
      rcases lowersTypes standard outside m.types with
        ⟨lowered_types, t', declared', lowers⟩ | ⟨refused, -, -, -⟩
      · obtain rfl := Option.some.inj (declared.symm.trans declared')
        rw [← types] at lowers
        have beside : Yields c s (lowerTypes m) lowered_types := congrArg Prod.fst lowers
        have bodies : Yields c (lowerTypes m c s).2 (lowerFunctions m.functions) functions := by
          rw [lowers]
          exact lowered
        exact accepted_of_functions beside bodies
      · cases declared.symm.trans refused

end Lower

theorem Source.Module.Unambiguous.orderly {m : Source.Module} (distinct : m.Unambiguous)
    (proper : ∀ decl ∈ m.types, decl.IsProper)
    (applied : ∀ decl ∈ m.types, ∀ other ∈ m.types, other.name ∈ decl.bareNames →
      other.typeParams = []) : Orderly m.types where
  distinct := distinct.types
  apart decl listed other listed' different := by
    have constructors := (List.nodup_append.mp distinct.values).1
    have : Std.Symm (Function.onFun List.Disjoint TypeDecl.constructorNames) :=
      ⟨fun _ _ => List.disjoint_symm⟩
    have disjoint := (List.nodup_flatMap.mp constructors).2.forall listed listed' fun same =>
      different (congrArg _ same)
    exact fun name declared declared' => disjoint declared declared'
  proper := proper
  applied := applied

namespace Lower

/-- The order in which a module declares its types does not matter, if any two declarations
that change places are exchangeable. Two modules with the same name, imports and functions and
with the same types are then both accepted or both refused.

No type may be a synonym of its own type parameter, and none may be mentioned without the type
arguments that it takes: whether a type has variables bears on the constraints that it meets,
so there a name would not be as good as the type. The same goes for types that are known when
the first one is declared. -/
theorem type_order_irrelevant (config : Config) (source : Option (String → Option Summary))
    {s : LowerState} (reachable : s.Reachable) {m m' : Source.Module} (name : m.name = m'.name)
    (imports : m.imports = m'.imports) (functions : m.functions = m'.functions)
    (types : m.types.Perm m'.types) (distinct : m.Unambiguous)
    (proper : ∀ decl ∈ m.types, decl.IsProper)
    (applied : ∀ decl ∈ m.types, ∀ other ∈ m.types, other.name ∈ decl.bareNames →
      other.typeParams = [])
    (hosts : ∀ entry, (arrive m).run { config, source } s = (.ok (), entry) →
      entry.Hosts m.types)
    (moved : ∀ decl other, [decl, other].Sublist m.types → [other, decl].Sublist m'.types →
      decl.Exchangeable other) :
    ((lowerModule m).run { config, source } s).1.isOk =
      ((lowerModule m').run { config, source } s).1.isOk := by
  have orderly := distinct.orderly proper applied
  have arrives : arrive m = arrive m' := by
    unfold arrive
    rw [name, imports]
  have accepted (m : Source.Module) : ((lowerModule m).run { config, source } s).1.isOk = true ↔
      ∃ entry, arrive m { config, source } s = (.ok (), entry) ∧
        Admits { config, source } m.functions (entry.withPlaceholders m.types) m.types := by
    rw [← accepted_iff_admits rfl reachable.atRest]
    unfold Yields Lower.run
    cases (lowerModule m { config, source } s).1 with
    | error fault => simp [Except.isOk, Except.toBool]
    | ok lowered => simp [Except.isOk, Except.toBool]
  rw [Bool.eq_iff_iff, accepted, accepted, ← arrives, ← functions]
  refine exists_congr fun entry => and_congr_right fun ran => ?_
  have atRest := maintains_arrive LowerState.lasting_atRest m { config, source } rfl s
    reachable.atRest
  have unaliased := maintains_arrive LowerState.lasting_unaliased m { config, source } rfl s
    reachable.unaliased
  rw [ran] at atRest unaliased
  exact admits_perm rfl orderly orderly.outlined (hosts entry ran) unaliased atRest types moved

/-- A node holds the rest of a chain, which may be a node again: either type may come first. -/
theorem type_order_irrelevant_mutual :
    let node : Source.TypeDecl :=
      { name := "Node", body := .record [("value", .named "i32"), ("rest", .named "Chain")] }
    let chain : Source.TypeDecl :=
      { name := "Chain", body := .sum [("Last", []), ("Link", [.named "Node"])] }
    let value (object : String) : Source.Expr := ⟨.member ⟨.var object, none⟩ "value", none⟩
    let last : Source.Function := {
      name := "last"
      params := [{ name := "node", ty := .named "Node" }]
      result := some (.named "i32")
      body := some ⟨.matching ⟨.member ⟨.var "node", none⟩ "rest", none⟩ [
        ⟨.constructor "Last" [], value "node", none⟩,
        ⟨.constructor "Link" [.bind "next"], value "next", none⟩], none⟩ }
    let m : Source.Module :=
      { name := "chains", items := [.type node, .type chain, .function last] }
    let m' : Source.Module :=
      { name := "chains", items := [.type chain, .function last, .type node] }
    ((lowerModule m).run {} {}).1.isOk = true ∧ ((lowerModule m').run {} {}).1.isOk = true := by
  intro node chain value last m m'
  have ok : ((lowerModule m).run {} {}).1.isOk = true := by decide +kernel
  have listed : m.types = [node, chain] := rfl
  have listed' : m'.types = [chain, node] := rfl
  have name : m.name = m'.name := rfl
  have imports : m.imports = m'.imports := rfl
  have none_imported : m.imports = [] := rfl
  have functions : m.functions = m'.functions := rfl
  have distinct : m.Unambiguous := by
    constructor
    · show ["Last", "Link", "last"].Nodup
      decide
    · show ["Node", "Chain"].Nodup
      decide
  clear_value m m'
  have types : m.types.Perm m'.types := by
    rw [listed, listed']
    exact .swap chain node []
  have each {P : Source.TypeDecl → Prop} (first : P node) (second : P chain) :
      ∀ decl ∈ m.types, P decl := by
    rw [listed]
    simpa using ⟨first, second⟩
  have hosts (entry : LowerState) (ran : (arrive m).run {} {} = (.ok (), entry)) :
      entry.Hosts m.types := by
    refine LowerState.hosts_of_fresh ?_ m.types
    unfold arrive at ran
    rw [none_imported] at ran
    cases ran
    rfl
  have moved (decl other : Source.TypeDecl) (before : [decl, other].Sublist m.types)
      (_ : [other, decl].Sublist m'.types) : decl.Exchangeable other := by
    rw [listed] at before
    cases before.eq_of_length rfl
    exact ⟨fun _ => ⟨rfl, nofun, rfl, by decide⟩, fun _ => ⟨rfl, nofun, rfl, by decide⟩⟩
  have same := type_order_irrelevant {} none .start name imports functions types distinct
    (each nofun nofun) (each (each (fun _ => rfl) fun _ => rfl) (each (fun _ => rfl) fun _ => rfl))
    hosts moved
  exact ⟨ok, same ▸ ok⟩

/-- A synonym of a type that comes later stands for the bare name of that type, and not for what
the name stands for in the end, so a module may be refused that is accepted with its types in
the other order. -/
theorem synonym_of_later_type_refused :
    let width : Source.TypeDecl := { name := "Width", body := .synonym (.named "Length") }
    let length : Source.TypeDecl := { name := "Length", body := .synonym (.named "i32") }
    let measure : Source.Function := {
      name := "measure"
      params := [{ name := "width", ty := .named "Width" }]
      result := some (.named "i32")
      body := some ⟨.var "width", none⟩ }
    let m : Source.Module :=
      { name := "shapes", items := [.type width, .type length, .function measure] }
    let m' : Source.Module :=
      { name := "shapes", items := [.type length, .type width, .function measure] }
    m.types.Perm m'.types ∧ m.functions = m'.functions ∧
      (m.types.map Source.TypeDecl.name ++ m.types.flatMap Source.TypeDecl.constructorNames ++
        m.functions.map Source.Function.name).Nodup ∧
      ((lowerModule m).run {} {}).1.isOk = false ∧ ((lowerModule m').run {} {}).1.isOk = true := by
  intro width length measure m m'
  refine ⟨.swap length width [], rfl, ?_, by decide +kernel, by decide +kernel⟩
  show ["Width", "Length", "measure"].Nodup
  decide

end Lower

end ModuleTyping
