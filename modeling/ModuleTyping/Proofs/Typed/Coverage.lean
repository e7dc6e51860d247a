import Mathlib.Data.List.Sort
import ModuleTyping.Proofs.Dict
import ModuleTyping.Typed.Matching

/-!
# Covered variants

A pattern `Offers` itself and, through alternatives alone, what its alternatives offer. Both
readings of a pattern, whether it takes everything and which constructors it names, are
questions about what it offers (`isCatchAll_iff`, `mem_covered_iff`), so the two see the same
alternatives. The names that the arms of a match leave over are then known one by one
(`mem_uncovered_iff`), and a match is rejected for exactly these, whatever the order of its
arms.
-/

namespace ModuleTyping

/-- The type is a sum of variants with these names, or a generic application of one. -/
def Ty.HasVariants (ty : Ty) (names : List String) : Prop :=
  ∃ name variants, (ty = .sum name variants ∨ ∃ args, ty = .generic (.sum name variants) args) ∧
    names = variants.map Prod.fst

theorem Ty.variants?_eq_some_iff {ty : Ty} {variants : List (String × List Ty)} :
    ty.variants? = some variants ↔
      ∃ name, ty = .sum name variants ∨ ∃ args, ty = .generic (.sum name variants) args := by
  constructor
  · intro own
    cases ty with
    | sum name variants' => cases own; exact ⟨name, .inl rfl⟩
    | generic base args =>
        cases base with
        | sum name variants' => cases own; exact ⟨name, .inr ⟨args, rfl⟩⟩
        | _ => cases own
    | _ => cases own
  · rintro ⟨name, rfl | ⟨args, rfl⟩⟩ <;> rfl

theorem Ty.hasVariants_iff {ty : Ty} {names : List String} :
    ty.HasVariants names ↔ ∃ variants, ty.variants? = some variants ∧
      names = variants.map Prod.fst := by
  simp only [HasVariants, variants?_eq_some_iff]
  constructor
  · rintro ⟨name, variants, form, rfl⟩
    exact ⟨variants, ⟨name, form⟩, rfl⟩
  · rintro ⟨variants, ⟨name, form⟩, rfl⟩
    exact ⟨name, variants, form, rfl⟩

namespace Typed

namespace Pattern

/-- The second pattern is the first one, or one that an alternative of the first offers. -/
inductive Offers : Pattern → Pattern → Prop
  | self (p : Pattern) : Offers p p
  | alternative {alternatives : List Pattern} {p q : Pattern} (member : p ∈ alternatives)
      (offers : Offers p q) : Offers (or alternatives) q

theorem offers_or_iff {alternatives : List Pattern} {q : Pattern} :
    (or alternatives).Offers q ↔ q = or alternatives ∨ ∃ p ∈ alternatives, p.Offers q := by
  constructor
  · rintro (_ | ⟨member, offers⟩)
    · exact .inl rfl
    · exact .inr ⟨_, member, offers⟩
  · rintro (rfl | ⟨p, member, offers⟩)
    · exact .self _
    · exact .alternative member offers

/-- The pattern offers a wildcard or a variable. -/
def TakesAll (p : Pattern) : Prop :=
  p.Offers wildcard ∨ ∃ name ty, p.Offers (bind name ty)

/-- The pattern offers a constructor of this name. -/
def Takes (p : Pattern) (name : String) : Prop :=
  ∃ fields ty, p.Offers (constructor name fields ty)

theorem takesAll_or {alternatives : List Pattern} :
    (or alternatives).TakesAll ↔ ∃ p ∈ alternatives, p.TakesAll := by
  simp only [TakesAll, offers_or_iff, reduceCtorEq, false_or]
  constructor
  · rintro (⟨p, member, offers⟩ | ⟨name, ty, p, member, offers⟩)
    · exact ⟨p, member, .inl offers⟩
    · exact ⟨p, member, .inr ⟨name, ty, offers⟩⟩
  · rintro ⟨p, member, offers | ⟨name, ty, offers⟩⟩
    · exact .inl ⟨p, member, offers⟩
    · exact .inr ⟨name, ty, p, member, offers⟩

theorem takes_or {alternatives : List Pattern} {name : String} :
    (or alternatives).Takes name ↔ ∃ p ∈ alternatives, p.Takes name := by
  simp only [Takes, offers_or_iff, reduceCtorEq, false_or]
  constructor
  · rintro ⟨fields, ty, p, member, offers⟩
    exact ⟨p, member, fields, ty, offers⟩
  · rintro ⟨p, member, fields, ty, offers⟩
    exact ⟨fields, ty, p, member, offers⟩

mutual

theorem isCatchAll_iff : (p : Pattern) → (p.isCatchAll = true ↔ p.TakesAll)
  | wildcard => iff_of_true rfl (.inl (.self _))
  | bind name ty => iff_of_true rfl (.inr ⟨name, ty, .self _⟩)
  | literal _ | constructor _ _ _ =>
      iff_of_false Bool.false_ne_true (by rintro (offers | ⟨_, _, offers⟩) <;> cases offers)
  | or alternatives => (anyCatchAll_iff alternatives).trans takesAll_or.symm

theorem anyCatchAll_iff : (ps : List Pattern) →
    (anyCatchAll ps = true ↔ ∃ p ∈ ps, p.TakesAll)
  | [] => by simp [anyCatchAll]
  | p :: rest => by simp [anyCatchAll, isCatchAll_iff p, anyCatchAll_iff rest]

end

mutual

theorem mem_covered_iff {name : String} : (p : Pattern) → (name ∈ p.covered ↔ p.Takes name)
  | constructor other fields ty => by
      rw [covered, List.mem_singleton]
      constructor
      · rintro rfl
        exact ⟨fields, ty, .self _⟩
      · rintro ⟨_, _, ⟨⟩⟩
        rfl
  | wildcard => iff_of_false List.not_mem_nil (by rintro ⟨_, _, ⟨⟩⟩)
  | bind _ _ => iff_of_false List.not_mem_nil (by rintro ⟨_, _, ⟨⟩⟩)
  | literal _ => iff_of_false List.not_mem_nil (by rintro ⟨_, _, ⟨⟩⟩)
  | or alternatives => (mem_coveredAll_iff alternatives).trans takes_or.symm

theorem mem_coveredAll_iff {name : String} : (ps : List Pattern) →
    (name ∈ coveredAll ps ↔ ∃ p ∈ ps, p.Takes name)
  | [] => by simp [coveredAll]
  | p :: rest => by simp [coveredAll, mem_covered_iff p, mem_coveredAll_iff rest]

end

end Pattern

/-- A match on the scrutinee is about variants with these names: those of the sum registered
under the name of its type, or else its own. -/
def Discerns (types : TypeTable) (scrutinee : Ty) (names : List String) : Prop :=
  (∃ ty, types.lookup? scrutinee.name = some ty ∧ ty.HasVariants names) ∨
    (¬ ∃ ty others, types.lookup? scrutinee.name = some ty ∧ ty.HasVariants others) ∧
      scrutinee.HasVariants names

theorem discerns_iff {types : TypeTable} {scrutinee : Ty} {names : List String} :
    Discerns types scrutinee names ↔ ∃ variants,
      variantsFor? types scrutinee = some variants ∧ names = variants.map Prod.fst := by
  simp only [Discerns, variantsFor?, Ty.hasVariants_iff]
  cases types.lookup? scrutinee.name with
  | none => simp
  | some ty => cases own : ty.variants? <;> simp [own]

variable {types : TypeTable} {scrutinee : Ty} {arms arms' : List Pattern}

theorem Discerns.unique {names names' : List String} (discerned : Discerns types scrutinee names)
    (discerned' : Discerns types scrutinee names') : names = names' := by
  obtain ⟨variants, found, rfl⟩ := discerns_iff.mp discerned
  obtain ⟨variants', found', rfl⟩ := discerns_iff.mp discerned'
  rw [Option.some.inj (found.symm.trans found')]

theorem mem_uncovered_iff {name : String} :
    name ∈ uncovered types scrutinee arms ↔ (¬ ∃ p ∈ arms, p.TakesAll) ∧
      ∃ names, Discerns types scrutinee names ∧ name ∈ names ∧ ¬ ∃ p ∈ arms, p.Takes name := by
  have takesAll : arms.any Pattern.isCatchAll = true ↔ ∃ p ∈ arms, p.TakesAll := by
    simp only [List.any_eq_true, Pattern.isCatchAll_iff]
  simp only [discerns_iff, uncovered]
  cases variantsFor? types scrutinee with
  | none => simp
  | some variants =>
      dsimp only
      by_cases all : ∃ p ∈ arms, p.TakesAll
      · simp [takesAll.mpr all, all]
      · rw [if_neg (mt takesAll.mp all), Dict.mem_keys_iff, Dict.contains_ofList]
        simp [all, Pattern.mem_coveredAll_iff]

theorem pairwise_uncovered : (uncovered types scrutinee arms).Pairwise (· < ·) := by
  unfold uncovered
  split
  · exact .nil
  · split
    · exact .nil
    · exact List.pairwise_map.mpr (Dict.ascending _)

theorem uncovered_perm (reordered : arms.Perm arms') :
    uncovered types scrutinee arms = uncovered types scrutinee arms' := by
  refine pairwise_uncovered.eq_of_mem_iff pairwise_uncovered fun name => ?_
  simp only [mem_uncovered_iff, reordered.mem_iff]

theorem uncovered_eq_nil_iff :
    uncovered types scrutinee arms = [] ↔
      (¬ ∃ names, Discerns types scrutinee names) ∨ (∃ p ∈ arms, p.TakesAll) ∨
        ∃ names, Discerns types scrutinee names ∧ ∀ name ∈ names, ∃ p ∈ arms, p.Takes name := by
  simp only [List.eq_nil_iff_forall_not_mem, mem_uncovered_iff]
  constructor
  · intro none
    by_cases all : ∃ p ∈ arms, p.TakesAll
    · exact .inr (.inl all)
    by_cases known : ∃ names, Discerns types scrutinee names
    · obtain ⟨names, discerned⟩ := known
      refine .inr (.inr ⟨names, discerned, fun name member => ?_⟩)
      by_contra untaken
      exact none name ⟨all, names, discerned, member, untaken⟩
    · exact .inl known
  · rintro enough name ⟨all, names, discerned, member, untaken⟩
    rcases enough with unknown | taken | ⟨names', discerned', taken⟩
    · exact unknown ⟨names, discerned⟩
    · exact all taken
    · exact untaken (taken name (discerned.unique discerned' ▸ member))

theorem exists_uncovered (some : uncovered types scrutinee arms ≠ []) :
    ∃ names, Discerns types scrutinee names ∧ ∀ name,
      name ∈ uncovered types scrutinee arms ↔ name ∈ names ∧ ¬ ∃ p ∈ arms, p.Takes name := by
  obtain ⟨first, missed⟩ := List.exists_mem_of_ne_nil _ some
  obtain ⟨all, names, discerned, -⟩ := mem_uncovered_iff.mp missed
  refine ⟨names, discerned, fun name => mem_uncovered_iff.trans ?_⟩
  constructor
  · rintro ⟨-, names', discerned', rest⟩
    rwa [discerned.unique discerned']
  · rintro rest
    exact ⟨all, names, discerned, rest⟩

section Verdict

variable {arms : List Arm} {origin : Origin}

theorem checkCoverage_of_eq_nil (covered : uncovered types scrutinee (arms.map Arm.pattern) = []) :
    checkCoverage types scrutinee arms origin = pure () := by
  rw [checkCoverage, covered]

theorem checkCoverage_of_ne_nil (some : uncovered types scrutinee (arms.map Arm.pattern) ≠ []) :
    checkCoverage types scrutinee arms origin =
      Check.fail (.uncoveredVariants (uncovered types scrutinee (arms.map Arm.pattern)))
        origin := by
  unfold checkCoverage
  split
  · contradiction
  · rfl

end Verdict

/-- A match passes exactly if it is about no sum, or an arm takes everything, or the arms take
every variant. One that fails is rejected for the variants that no arm takes, each once and in
ascending order. The order of the arms does not matter. -/
theorem coverage_verdict (types : TypeTable) (scrutinee : Ty) (arms : List Arm)
    (origin : Origin) (announced : List Mismatch) :
    ((checkCoverage types scrutinee arms origin).run announced = (.ok (), announced) ↔
      (¬ ∃ names, Discerns types scrutinee names) ∨ (∃ arm ∈ arms, arm.pattern.TakesAll) ∨
        ∃ names, Discerns types scrutinee names ∧
          ∀ name ∈ names, ∃ arm ∈ arms, arm.pattern.Takes name) ∧
    (∀ fault after,
      (checkCoverage types scrutinee arms origin).run announced = (.error fault, after) →
        ∃ missing names, fault.kind = .nonExhaustiveMatch ∧ fault.origin = origin ∧
          fault.message =
            "Non-exhaustive match: missing variant(s) " ++ ", ".intercalate missing ∧
          missing.Pairwise (· < ·) ∧ Discerns types scrutinee names ∧
          ∀ name, name ∈ missing ↔ name ∈ names ∧ ¬ ∃ arm ∈ arms, arm.pattern.Takes name) ∧
    ∀ arms', arms.Perm arms' →
      checkCoverage types scrutinee arms' origin = checkCoverage types scrutinee arms origin := by
  refine ⟨?_, ?_, fun arms' reordered => ?_⟩
  · have enough : uncovered types scrutinee (arms.map Arm.pattern) = [] ↔ _ :=
      uncovered_eq_nil_iff
    simp only [List.mem_map, exists_exists_and_eq_and] at enough
    rw [← enough]
    constructor
    · intro passed
      by_contra some
      rw [checkCoverage_of_ne_nil some] at passed
      cases passed
    · intro covered
      rw [checkCoverage_of_eq_nil covered]
      rfl
  · intro fault after failed
    by_cases covered : uncovered types scrutinee (arms.map Arm.pattern) = []
    · rw [checkCoverage_of_eq_nil covered] at failed
      cases failed
    · rw [checkCoverage_of_ne_nil covered] at failed
      cases failed
      obtain ⟨names, discerned, missing⟩ := exists_uncovered covered
      simp only [List.mem_map, exists_exists_and_eq_and] at missing
      exact ⟨_, names, rfl, rfl, rfl, pairwise_uncovered, discerned, missing⟩
  · rw [checkCoverage, checkCoverage, uncovered_perm (reordered.map Arm.pattern)]

/-- The registered sum has variants that the scrutinee's own declaration lacks, and alternatives
are nested. -/
theorem coverage_verdict_signal :
    let body : Expr := ⟨.literal .unit, .unit, none⟩
    let signal : Ty := .sum "Signal" [("Red", [.i32]), ("Green", []), ("Blue", []), ("Amber", [])]
    let types := TypeTable.register ⟨∅⟩ { name := "Signal", ty := .generic signal [.i32] } {}
    let taken (name : String) : Pattern := .constructor name [.wildcard] signal
    let arms : List Arm := [⟨.or [.literal .unit, .or [taken "Green"]], body⟩, ⟨taken "Red", body⟩]
    let verdict := (checkCoverage types (.sum "Signal" []) arms none).run []
    verdict = (.error { cause := .uncoveredVariants ["Amber", "Blue"] }, []) ∧
      (checkCoverage types (.sum "Signal" []) arms.reverse none).run [] = verdict ∧
      ∃ missing names : List String, missing.Pairwise (· < ·) ∧
        Discerns types (.sum "Signal" []) names ∧
        ∀ name, name ∈ missing ↔ name ∈ names ∧ ¬ ∃ arm ∈ arms, arm.pattern.Takes name := by
  intro body signal types taken arms verdict
  have failed : verdict = (.error { cause := .uncoveredVariants ["Amber", "Blue"] }, []) := rfl
  obtain ⟨-, rejected, reordered⟩ := coverage_verdict types (.sum "Signal" []) arms none []
  obtain ⟨missing, names, -, -, -, ascending, listed⟩ := rejected _ _ failed
  refine ⟨failed, ?_, missing, names, ascending, listed⟩
  rw [reordered arms.reverse (List.reverse_perm arms).symm]

end Typed

end ModuleTyping
