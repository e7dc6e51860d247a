import Mathlib.Data.List.MinMax
import Mathlib.Data.List.Nodup
import ModuleTyping.Inference.Records
import ModuleTyping.Proofs.Dict
import ModuleTyping.Proofs.SymbolTable.Reordering

/-!
# The record that a literal fits best

A record literal without a name is tried on every declared record. It fits one that has as many
fields, all of them among the given ones, with types that fit together (`TypeInfo.Fits`), and of
the records that it fits it is given the most concrete one, under the least name if there are
several (`TypeTable.Best`).

The candidates stand in ascending order of their names, so the first of the most concrete ones is
the one of least name. They depend on what is declared under which name and on nothing else
(`TypeTable.contents`), so the order in which the types were registered plays no part.
-/

namespace ModuleTyping

/-! ### Fitting a declared record -/

namespace TypeInfo

variable {info : TypeInfo} {given : List (String × Ty)}

/-- The fields of a literal fit the declared ones: there are as many, each declared field is among
the given ones, and in the order of declaration the types fit with one set of bindings for all. -/
def Fits (info : TypeInfo) (given : List (String × Ty)) (bindings : Bindings) : Prop :=
  ∃ declared actuals, info.ty.fields? = some declared ∧ declared.length = given.length ∧
    List.Forall₂ (fun field actual => given.lookup field.1 = some actual) declared actuals ∧
    Ty.fitAll ∅ (declared.map Prod.snd) actuals = (true, bindings)

theorem fitFields_eq_some_iff {bindings bindings' : Bindings} {declared : List (String × Ty)} :
    fitFields given bindings declared = some bindings' ↔
      ∃ actuals,
        List.Forall₂ (fun field actual => given.lookup field.1 = some actual) declared actuals ∧
        Ty.fitAll bindings (declared.map Prod.snd) actuals = (true, bindings') := by
  induction declared generalizing bindings with
  | nil =>
      rw [fitFields]
      constructor
      · intro same
        cases same
        exact ⟨[], .nil, rfl⟩
      · rintro ⟨actuals, ⟨⟩, fitted⟩
        cases fitted
        rfl
  | cons field declared ih =>
      obtain ⟨name, ty⟩ := field
      rw [fitFields]
      simp only [List.forall₂_cons_left_iff, List.map_cons]
      cases found : given.lookup name with
      | none =>
          refine ⟨by rintro ⟨⟩, ?_⟩
          rintro ⟨_, ⟨_, _, ⟨⟩, _⟩, _⟩
      | some actual =>
          dsimp only
          rcases fitted : ty.fit bindings actual with ⟨_ | _, after⟩
          · refine ⟨by rintro ⟨⟩, ?_⟩
            rintro ⟨_, ⟨_, rest, ⟨⟩, _, rfl⟩, all⟩
            rw [Ty.fitAll, fitted] at all
            cases all
          · dsimp only
            rw [ih]
            constructor
            · rintro ⟨rest, others, all⟩
              refine ⟨actual :: rest, ⟨actual, rest, rfl, others, rfl⟩, ?_⟩
              rw [Ty.fitAll, fitted]
              exact all
            · rintro ⟨_, ⟨_, rest, ⟨⟩, others, rfl⟩, all⟩
              rw [Ty.fitAll, fitted] at all
              exact ⟨rest, others, all⟩

/-- A declared record is a candidate for the literals that fit it. -/
theorem candidate?_eq_some_iff {ty : Ty} :
    info.candidate? given = some ty ↔
      ∃ bindings, info.Fits given bindings ∧ ty = info.appliedWith bindings := by
  unfold candidate?
  constructor
  · intro chosen
    obtain ⟨declared, fields, chosen⟩ := Option.bind_eq_some_iff.mp chosen
    split at chosen
    · next counted =>
        obtain ⟨bindings, fitted, chosen⟩ := Option.bind_eq_some_iff.mp chosen
        obtain ⟨actuals, found, fitted⟩ := fitFields_eq_some_iff.mp fitted
        exact ⟨bindings, ⟨declared, actuals, fields, counted, found, fitted⟩,
          (Option.some.inj chosen).symm⟩
    · cases chosen
  · rintro ⟨bindings, ⟨declared, actuals, fields, counted, found, fitted⟩, rfl⟩
    have bound : fitFields given ∅ declared = some bindings :=
      fitFields_eq_some_iff.mpr ⟨actuals, found, fitted⟩
    rw [fields]
    show (if declared.length = given.length then
      (fitFields given ∅ declared).bind fun bindings => some (info.appliedWith bindings)
      else none) = _
    rw [if_pos counted, bound]
    rfl

end TypeInfo

/-! ### The candidates in order -/

namespace TypeTable

variable {types : TypeTable} {given : List (String × Ty)}

/-- What is declared, by registered name. -/
def contents (types : TypeTable) : Dict TypeInfo :=
  types.table.entries.mapValues Entry.value

/-- The record that is registered under this name gives the literal this type. -/
def Offers (types : TypeTable) (given : List (String × Ty)) (name : String) (ty : Ty) : Prop :=
  ∃ info bindings, types.contents.get? name = some info ∧ info.Fits given bindings ∧
    ty = info.appliedWith bindings

/-- Of the records that fit the literal, the one that is registered under this name is the most
concrete, and those before it are less so. -/
structure Best (types : TypeTable) (given : List (String × Ty)) (name : String) (ty : Ty) :
    Prop where
  offers : types.Offers given name ty
  most : ∀ other ty', types.Offers given other ty' → ty'.concreteness ≤ ty.concreteness
  first : ∀ other ty', types.Offers given other ty' → other < name →
    ty'.concreteness < ty.concreteness

theorem offers_iff {name : String} {ty : Ty} :
    types.Offers given name ty ↔
      ∃ info, types.contents.get? name = some info ∧ info.candidate? given = some ty := by
  simp only [TypeInfo.candidate?_eq_some_iff]
  constructor
  · rintro ⟨info, bindings, held, fits, rfl⟩
    exact ⟨info, held, bindings, fits, rfl⟩
  · rintro ⟨info, held, bindings, fits, rfl⟩
    exact ⟨info, bindings, held, fits, rfl⟩

/-- The types that declared records give the literal, each with the name of the record. -/
def candidates (types : TypeTable) (given : List (String × Ty)) : List (String × Ty) :=
  types.contents.entries.filterMap fun item => (item.2.candidate? given).map (item.1, ·)

theorem mem_candidates_iff {name : String} {ty : Ty} :
    (name, ty) ∈ types.candidates given ↔ types.Offers given name ty := by
  rw [offers_iff, candidates, List.mem_filterMap]
  constructor
  · rintro ⟨item, member, given⟩
    obtain ⟨ty, candidate, same⟩ := Option.map_eq_some_iff.mp given
    cases same
    exact ⟨item.2, Dict.mem_entries_iff.mp member, candidate⟩
  · rintro ⟨info, held, candidate⟩
    exact ⟨(name, info), Dict.mem_entries_iff.mpr held, by rw [candidate]; rfl⟩

theorem candidates_ascending (types : TypeTable) (given : List (String × Ty)) :
    (types.candidates given).Pairwise fun a b => a.1 < b.1 := by
  refine List.pairwise_filterMap.mpr (types.contents.ascending.imp ?_)
  intro item item' before a isFirst b isSecond
  obtain ⟨_, _, rfl⟩ := Option.map_eq_some_iff.mp isFirst
  obtain ⟨_, _, rfl⟩ := Option.map_eq_some_iff.mp isSecond
  exact before

/-- At most one record is the best, and it gives one type. -/
theorem Best.unique {name name' : String} {ty ty' : Ty} (best : types.Best given name ty)
    (best' : types.Best given name' ty') : ty = ty' := by
  have same : name = name' := by
    rcases Std.lt_trichotomy name name' with before | same | after
    · exact absurd (best'.first name ty best.offers before)
        (Nat.not_lt.mpr (best.most name' ty' best'.offers))
    · exact same
    · exact absurd (best.first name' ty' best'.offers after)
        (Nat.not_lt.mpr (best'.most name ty best.offers))
  subst same
  obtain ⟨info, held, candidate⟩ := offers_iff.mp best.offers
  obtain ⟨info', held', candidate'⟩ := offers_iff.mp best'.offers
  cases held.symm.trans held'
  exact Option.some.inj (candidate.symm.trans candidate')

/-- Where names ascend, what comes first has no greater name. -/
theorem not_lt_of_idxOf_le [DecidableEq (String × Ty)] {l : List (String × Ty)}
    (ascending : l.Pairwise fun a b => a.1 < b.1) {a b : String × Ty} (memberA : a ∈ l)
    (memberB : b ∈ l) (before : l.idxOf a ≤ l.idxOf b) : ¬ b.1 < a.1 := by
  rcases Nat.eq_or_lt_of_le before with same | before
  · obtain rfl : a = b := (List.idxOf_inj memberA).mp same
    exact String.lt_irrefl a.1
  · have ordered := List.pairwise_iff_getElem.mp ascending _ _ (List.idxOf_lt_length_of_mem memberA)
      (List.idxOf_lt_length_of_mem memberB) before
    rw [List.getElem_idxOf, List.getElem_idxOf] at ordered
    exact fun after => String.lt_irrefl a.1 (String.lt_trans ordered after)

/-- The first of the most concrete candidates is the best. -/
theorem best_of_argmax {name : String} {ty : Ty}
    (chosen : (types.candidates given).argmax (·.2.concreteness) = some (name, ty)) :
    types.Best given name ty where
  offers := mem_candidates_iff.mp (List.argmax_mem chosen)
  most _ _ offers :=
    List.le_of_mem_argmax (f := (·.2.concreteness)) (mem_candidates_iff.mpr offers) chosen
  first other ty' offers before := by
    classical
    have member := mem_candidates_iff.mpr offers
    have most : ty'.concreteness ≤ ty.concreteness :=
      List.le_of_mem_argmax (f := (·.2.concreteness)) member chosen
    refine Nat.lt_of_le_of_ne most fun equal => ?_
    have index := List.index_of_argmax chosen member (Nat.le_of_eq equal.symm)
    exact not_lt_of_idxOf_le (types.candidates_ascending given) (List.argmax_mem chosen) member
      index before

/-! ### Registering in any order -/

theorem reachable_primitives : primitives.table.Reachable :=
  ⟨primitiveNames.map fun name => .register name { name, ty := .primitive name } {},
    List.foldl_map⟩

/-- Registers types one after the other. -/
def registerAll (types : TypeTable) (decls : List (TypeInfo × Registration)) : TypeTable :=
  decls.foldl (fun types decl => types.register decl.1 decl.2) types

theorem contents_register (reachable : types.table.Reachable) (info : TypeInfo)
    (reg : Registration) :
    (types.register info reg).contents = types.contents.insert info.name info := by
  refine Dict.ext_get? fun name => ?_
  rw [Dict.get?_insert, contents, contents, Dict.get?_mapValues, Dict.get?_mapValues]
  exact reachable.consistent.value_register info.name name info reg

theorem contents_registerAll (reachable : types.table.Reachable)
    (decls : List (TypeInfo × Registration)) :
    (types.registerAll decls).contents =
      (decls.map Prod.fst).foldl (fun d info => d.insert info.name info) types.contents := by
  induction decls generalizing types with
  | nil => rfl
  | cons decl decls ih =>
      rw [List.map_cons, List.foldl_cons, ← contents_register reachable decl.1 decl.2]
      exact ih (reachable.after_register decl.1.name decl.1 decl.2)

/-- Types of distinct names may be registered in any order. -/
theorem contents_registerAll_perm (reachable : types.table.Reachable)
    {decls decls' : List (TypeInfo × Registration)}
    (reordered : (decls.map Prod.fst).Perm (decls'.map Prod.fst))
    (distinct : (decls.map (·.1.name)).Nodup) :
    (types.registerAll decls).contents = (types.registerAll decls').contents := by
  have names : ((decls.map Prod.fst).map TypeInfo.name).Nodup := by
    rw [List.map_map]
    exact distinct
  rw [contents_registerAll reachable, contents_registerAll reachable]
  refine reordered.foldl_eq' (fun a memberA b memberB d => ?_) _
  by_cases same : a.name = b.name
  · rw [List.inj_on_of_nodup_map names memberA memberB same]
  · exact d.insert_comm same a b

end TypeTable

/-! ### The choice -/

namespace Environment

variable {env : Environment} {given : List (String × Ty)}

theorem bestCandidate?_eq_argmax (env : Environment) (given : List (String × Ty)) :
    env.bestCandidate? given =
      ((env.types.candidates given).argmax (·.2.concreteness)).map Prod.snd := by
  have listed : (env.types.toList.filterMap fun entry => entry.value.candidate? given) =
      (env.types.candidates given).map Prod.snd := by
    show ((env.types.table.entries.entries.map Prod.snd).filterMap _) = _
    rw [List.filterMap_map, TypeTable.candidates, List.map_filterMap]
    show _ = (env.types.table.entries.entries.map _).filterMap _
    rw [List.filterMap_map]
    refine List.filterMap_congr fun item _ => ?_
    show item.2.value.candidate? given =
      ((item.2.value.candidate? given).map (item.1, ·)).map Prod.snd
    rw [Option.map_map]
    exact Option.map_id'.symm
  unfold bestCandidate?
  rw [listed, List.foldl_map]
  show List.foldl _ (Option.map Prod.snd (none : Option (String × Ty))) _ = _
  refine List.foldl_hom (Option.map Prod.snd) fun best candidate => ?_
  rcases best with _ | best
  · rfl
  · show (if best.2.concreteness < candidate.2.concreteness then _ else _) =
      Option.map Prod.snd (if best.2.concreteness < candidate.2.concreteness then _ else _)
    split <;> rfl

theorem bestCandidate?_eq_none_iff :
    env.bestCandidate? given = none ↔ ∀ name ty, ¬ env.types.Offers given name ty := by
  rw [bestCandidate?_eq_argmax, Option.map_eq_none_iff, List.argmax_eq_none,
    List.eq_nil_iff_forall_not_mem]
  simp only [← TypeTable.mem_candidates_iff]
  exact Prod.forall

theorem bestCandidate?_eq_some_iff {ty : Ty} :
    env.bestCandidate? given = some ty ↔ ∃ name, env.types.Best given name ty := by
  rw [bestCandidate?_eq_argmax]
  constructor
  · intro given
    obtain ⟨candidate, chosen, rfl⟩ := Option.map_eq_some_iff.mp given
    exact ⟨candidate.1, TypeTable.best_of_argmax chosen⟩
  · rintro ⟨name, best⟩
    cases chosen : (env.types.candidates given).argmax (·.2.concreteness) with
    | none =>
        rw [List.argmax_eq_none] at chosen
        cases chosen ▸ TypeTable.mem_candidates_iff.mpr best.offers
    | some candidate =>
        have other : env.types.Best given candidate.1 candidate.2 :=
          TypeTable.best_of_argmax chosen
        exact congrArg some (other.unique best)

/-- The choice depends on what is declared under which name and on nothing else. -/
theorem bestCandidate?_congr {env' : Environment}
    (same : env.types.contents = env'.types.contents) :
    env.bestCandidate? given = env'.bestCandidate? given := by
  rw [bestCandidate?_eq_argmax, bestCandidate?_eq_argmax, TypeTable.candidates,
    TypeTable.candidates, same]

/-- A literal without a name is given no declared record exactly if it fits none. Otherwise it is
given one that it fits, of the greatest concreteness of all that it fits, and of the least name of
those. Tables that hold the same types under the same names give the same, so it does not matter
in which order types are registered. -/
theorem record_chosen_by_concreteness_then_name (env : Environment)
    (given : List (String × Ty)) :
    (env.bestCandidate? given = none ↔
      ∀ name info bindings, env.types.contents.get? name = some info →
        ¬ info.Fits given bindings) ∧
    (∀ ty, env.bestCandidate? given = some ty ↔ ∃ name, env.types.Best given name ty) ∧
    (∀ env' : Environment, env.types.contents = env'.types.contents →
      env.bestCandidate? given = env'.bestCandidate? given) ∧
    ∀ decls decls' : List (TypeInfo × Registration), env.types.table.Reachable →
      (decls.map Prod.fst).Perm (decls'.map Prod.fst) → (decls.map (·.1.name)).Nodup →
        ({ env with types := env.types.registerAll decls } : Environment).bestCandidate? given =
          ({ env with types := env.types.registerAll decls' } : Environment).bestCandidate?
            given := by
  refine ⟨?_, fun ty => bestCandidate?_eq_some_iff, fun env' => bestCandidate?_congr, ?_⟩
  · rw [bestCandidate?_eq_none_iff]
    constructor
    · intro noOffer name info bindings held fits
      exact noOffer name _ ⟨info, bindings, held, fits, rfl⟩
    · rintro noFit name ty ⟨info, bindings, held, fits, -⟩
      exact noFit name info bindings held fits
  · intro decls decls' reachable reordered distinct
    exact bestCandidate?_congr
      (TypeTable.contents_registerAll_perm reachable reordered distinct)

/-- Of two records that are as concrete and one that is less so, the first by name is chosen, in
whichever order they are registered. -/
theorem record_chosen_among_spans :
    let pair (name : String) : TypeInfo :=
      { name, ty := .record name [("left", .var "T" none), ("right", .var "T" none)],
        typeParams := [{ name := "T" }] }
    let point : TypeInfo :=
      { name := "Point", ty := .record "Point" [("left", .i32), ("right", .i32)] }
    let decls : List (TypeInfo × Registration) :=
      [(pair "Span", {}), (point, {}), (pair "Range", {})]
    let env : Environment := { types := TypeTable.primitives.registerAll decls }
    let env' : Environment := { types := TypeTable.primitives.registerAll decls.reverse }
    let given : List (String × Ty) := [("right", .i32), ("left", .i32)]
    let ty : Ty := .generic (pair "Range").ty [.i32]
    env.bestCandidate? given = some ty ∧ env'.bestCandidate? given = some ty ∧
      ∃ name, env'.types.Best given name ty := by
  intro pair point decls env env' given ty
  have chosen : env.bestCandidate? given = some ty := by
    dsimp only [env, given, ty, decls, point, pair]
    rfl
  obtain ⟨-, -, -, anyOrder⟩ :=
    record_chosen_by_concreteness_then_name { types := TypeTable.primitives } given
  have chosen' : env'.bestCandidate? given = some ty := by
    rw [← chosen]
    refine (anyOrder decls decls.reverse TypeTable.reachable_primitives ?_ (by decide)).symm
    exact (List.reverse_perm decls).symm.map Prod.fst
  exact ⟨chosen, chosen',
    ((record_chosen_by_concreteness_then_name env' given).2.1 ty).mp chosen'⟩

end Environment

end ModuleTyping
