import Mathlib.Data.List.Forall2
import ModuleTyping.Proofs.Inference.Candidates
import ModuleTyping.Proofs.Lowering.Mentions
import ModuleTyping.Proofs.SymbolTable.Resolution
import ModuleTyping.Proofs.Ty.Sameness

/-!
# Type synonyms

A synonym is registered like any other declared type, with its target as the type that it stands
for. Without parameters it means its target. With parameters it would be expected to mean the
target with the arguments in their places (`Ty.filled`), and what it comes to is the application of
the target, in which the parameters are left, to the arguments (`meaningOfApplied_of_met`).

The two are the same only if the target is an application as well, of which the arguments become
those of the synonym (`Ty.same_filled_iff`). Hence a synonym of an array, a function, a map or a
parameter never means what it was written for once it has arguments.
-/

namespace ModuleTyping

/-! ### Putting in arguments -/

namespace Ty

mutual

/-- The type with types for its variables, wherever they stand. What a declared type holds has
variables of its own, which are not meant. -/
def filled (bindings : Bindings) : Ty → Ty
  | var name constraint => (bindings.get? name).getD (var name constraint)
  | array element => array (element.filled bindings)
  | function params result => function (filledAll bindings params) (result.filled bindings)
  | generic base args => generic base (filledAll bindings args)
  | ref referent => ref (referent.filled bindings)
  | mutRef referent => mutRef (referent.filled bindings)
  | map key value => map (key.filled bindings) (value.filled bindings)
  | primitive name => primitive name
  | abstract name => abstract name
  | record name fields => record name fields
  | sum name variants => sum name variants
  | unit => unit

/-- The types with types for their variables. -/
def filledAll (bindings : Bindings) : List Ty → List Ty
  | [] => []
  | ty :: rest => ty.filled bindings :: filledAll bindings rest

end

/-- An application of a type is the same as the type with the arguments put in only if the type is
an application itself, and of the same arguments then. -/
theorem same_filled_iff {bindings : Bindings} {args : List Ty}
    (given : ∀ name bound, bindings.get? name = some bound → bound ∈ args) (ty : Ty) :
    (generic ty args).same (ty.filled bindings) = true ↔
      ∃ base tys, ty = generic base tys ∧ sameAll args (filledAll bindings tys) = true := by
  constructor
  · intro alike
    cases ty with
    | generic base tys =>
        rw [filled, same, Bool.and_eq_true] at alike
        exact ⟨base, tys, rfl, alike.2⟩
    | var name constraint =>
        rw [filled] at alike
        cases held : bindings.get? name with
        | none =>
            rw [held, Option.getD_none] at alike
            simp [same] at alike
        | some bound =>
            -- The type is one of the arguments, and so it is smaller than the application.
            rw [held, Option.getD_some] at alike
            exact absurd alike (not_same_of_mem (given name bound held))
    | _ => simp [filled, same] at alike
  · rintro ⟨base, tys, rfl, alike⟩
    rw [filled, same, Bool.and_eq_true]
    exact ⟨beq_self_eq_true base.name, alike⟩

end Ty

theorem TypeInfo.mem_of_bindingsOf {info : TypeInfo} {args : List Ty} {name : String} {bound : Ty}
    (held : (info.bindingsOf args).get? name = some bound) : bound ∈ args :=
  (List.of_mem_zip (Dict.mem_of_get?_ofList held)).2

/-! ### Arguments that meet constraints -/

namespace TypeParam

/-- The type meets the constraint of the parameter, if there is one. -/
def MetBy (param : TypeParam) (arg : Ty) : Prop :=
  ∀ constraint, param.constraint = some constraint → arg.satisfies constraint = true

theorem validate_of_met {params : List TypeParam} {args : List Ty} (declaration : String)
    (known : ∀ param ∈ params, ∀ constraint, param.constraint = some constraint →
      Constraint.known constraint = .ok ())
    (met : List.Forall₂ MetBy params args) : validate declaration params args = .ok () := by
  induction met with
  | nil => rfl
  | @cons param arg params args first _ ih =>
      obtain ⟨knownFirst, knownRest⟩ := List.forall_mem_cons.mp known
      rw [validate]
      cases constrained : param.constraint with
      | none => exact ih knownRest
      | some constraint =>
          simp only [knownFirst constraint constrained, first constraint constrained]
          exact ih knownRest

end TypeParam

namespace WrittenType

variable {T : Meanings} {info : TypeInfo} {args : List Ty} {name : String}

/-- A declared name means the declared type applied to the arguments, whatever was declared. -/
theorem meaningOfApplied_of_met (held : T name = some info)
    (known : ∀ param ∈ info.typeParams, ∀ constraint, param.constraint = some constraint →
      Constraint.known constraint = .ok ())
    (met : List.Forall₂ TypeParam.MetBy info.typeParams args) :
    meaningOfApplied T name args = some (.generic info.ty args) := by
  have arity : (!info.typeParams.isEmpty && info.typeParams.length != args.length) = false := by
    rw [met.length_eq, bne_self_eq_false, Bool.and_false]
  unfold meaningOfApplied
  rw [held]
  dsimp only
  rw [arity, TypeParam.validate_of_met name known met]
  rfl

end WrittenType

theorem TypeTable.info?_register_self {types : TypeTable} (reachable : types.table.Reachable)
    (info : TypeInfo) (reg : Registration) :
    (types.register info reg).info? info.name = some info := by
  have value := reachable.consistent.value_register info.name info.name info reg
  rw [if_pos rfl] at value
  obtain ⟨entry, held, value⟩ := Option.map_eq_some_iff.mp value
  unfold info? entry?
  rw [show (types.register info reg).table.get? info.name = some entry from
    SymbolTable.get?_of_held held, Option.map_some, value]

/-! ### Declared synonyms -/

namespace Lower

variable {c : Context} {s : LowerState}

/-- A synonym is accepted if its target is, and registered with its target. -/
theorem lowerTypeDecl_synonym (standard : c.engine = .standard)
    (reachable : s.env.types.table.Reachable) (outside : s.typeParams = [])
    {decl : Source.TypeDecl} {target : WrittenType} (isSynonym : decl.body = .synonym target)
    {params : List TypeParam} (normalized : TypeParam.normalize decl.typeParams = .ok params)
    {ty : Ty}
    (resolved : ((withTypeParams params (resolve decl.origin target)).run c s).1 = .ok ty) :
    ∃ lowered after, (lowerTypeDecl decl).run c s = (.ok lowered, after) ∧
      after.env.types.info? decl.name = some { name := decl.name, ty, typeParams := params } := by
  have means : target.meaning s.env.types.info? params.reverse = some ty := by
    have means := ((reads_resolve decl.origin target).withTypeParams params).of_ok resolved
    rwa [outside, List.append_nil] at means
  have declared : decl.meaning s.env.types.info? =
      some { name := decl.name, ty, typeParams := params } := by
    refine Source.TypeDecl.meaning_eq_some.mpr ⟨normalized, ?_, rfl⟩
    rw [isSynonym]
    exact means
  rcases declared_lowerTypeDecl standard outside decl with
    ⟨info, lowered, isInfo, ran⟩ | ⟨refused, -⟩
  · obtain rfl := Option.some.inj (isInfo.symm.trans declared)
    refine ⟨lowered, _, ran, ?_⟩
    rw [LowerState.withDeclaration, isSynonym]
    exact TypeTable.info?_register_self reachable _ _
  · cases refused.symm.trans declared

/-- Once a synonym is declared, its name alone means the target, and its name with arguments
means the application of the target to them. That is the target with the arguments put in exactly
if the target is itself an application, and the arguments of it become those of the synonym. -/
theorem synonyms_not_expanded (config : Config) (source : Option (String → Option Summary))
    {s : LowerState} (reachable : s.env.types.table.Reachable) (outside : s.typeParams = [])
    {decl : Source.TypeDecl} {target : WrittenType} (isSynonym : decl.body = .synonym target)
    {params : List TypeParam} (normalized : TypeParam.normalize decl.typeParams = .ok params)
    {ty : Ty}
    (resolved : ((withTypeParams params (resolve decl.origin target)).run
      { config, source } s).1 = .ok ty) :
    ∃ lowered after, (lowerTypeDecl decl).run { config, source } s = (.ok lowered, after) ∧
      ∀ (t : LowerState) (origin : Origin),
        t.env.types.info? decl.name = after.env.types.info? decl.name →
        (decl.name ≠ "auto" → decl.name ≠ "unit" →
          t.typeParams.find? (·.name == decl.name) = none →
          (resolve origin (.named decl.name)).run { config, source } t = (.ok ty, t)) ∧
        ∀ (written : List WrittenType) (args : List Ty),
          ((resolveAll origin written).run { config, source } t).1 = .ok args →
          List.Forall₂ TypeParam.MetBy params args →
          (resolve origin (.generic decl.name written)).run { config, source } t =
              (.ok (.generic ty args), t) ∧
            let bindings := TypeInfo.bindingsOf ⟨decl.name, ty, params⟩ args
            ((Ty.generic ty args).same (ty.filled bindings) = true ↔
              ∃ base tys, ty = .generic base tys ∧
                Ty.sameAll args (Ty.filledAll bindings tys) = true) := by
  obtain ⟨lowered, after, ran, held⟩ := lowerTypeDecl_synonym (c := { config, source }) rfl
    reachable outside isSynonym normalized resolved
  refine ⟨lowered, after, ran, fun t origin still => ⟨fun notAuto notUnit free => ?_,
    fun written args resolvedArgs met => ⟨?_, Ty.same_filled_iff ?_ ty⟩⟩⟩
  · refine (reads_resolve origin _).run_eq ?_
    rw [WrittenType.meaning, free]
    unfold WrittenType.meaningOfName
    rw [if_neg notAuto, if_neg notUnit, still, held, Option.map_some]
  · refine (reads_resolve origin _).run_eq ?_
    rw [WrittenType.meaning, (reads_resolveAll origin written).of_ok resolvedArgs,
      Option.bind_some]
    exact WrittenType.meaningOfApplied_of_met (still.trans held)
      (TypeParam.known_of_normalize normalized) met
  · exact fun name bound => TypeInfo.mem_of_bindingsOf

/-- A synonym of a pair with its parameters in the order of the pair, applied where there are
type parameters to apply it to. -/
theorem synonyms_not_expanded_pair :
    let pair : TypeInfo := {
      name := "Pair"
      ty := .record "Pair" [("first", .var "A" none), ("second", .var "B" none)]
      typeParams := [⟨"A", none⟩, ⟨"B", none⟩] }
    let s : LowerState := { env := { types := TypeTable.primitives.register pair {} } }
    let target : WrittenType := .generic "Pair" [.named "K", .named "V"]
    let params : List TypeParam := [⟨"K", some "Numeric"⟩, ⟨"V", none⟩]
    let decl : Source.TypeDecl := { name := "Sample", typeParams := params, body := .synonym target }
    let ty : Ty := .generic pair.ty [.var "K" (some "Numeric"), .var "V" none]
    let written : List WrittenType := [.named "X", .array (.named "Y")]
    let args : List Ty := [.var "X" (some "Numeric"), .array (.var "Y" none)]
    ((withTypeParams params (resolve none target)).run {} s).1 = .ok ty ∧
      List.Forall₂ TypeParam.MetBy params args ∧
      ∃ lowered after, (lowerTypeDecl decl).run {} s = (.ok lowered, after) ∧
        let t := { after with typeParams := [⟨"X", some "Numeric"⟩, ⟨"Y", none⟩] }
        (resolve none (.generic "Sample" written)).run {} t = (.ok (.generic ty args), t) ∧
          (Ty.generic ty args).same
            (ty.filled (TypeInfo.bindingsOf ⟨"Sample", ty, params⟩ args)) = true := by
  intro pair s target params decl ty written args
  have reachable : s.env.types.table.Reachable :=
    TypeTable.reachable_primitives.after_register "Pair" pair {}
  have isSynonym : decl.body = .synonym target := rfl
  have normalized : TypeParam.normalize decl.typeParams = .ok params := rfl
  have resolved : ((withTypeParams params (resolve none target)).run {} s).1 = .ok ty := by
    dsimp only [params, target, s, pair, ty]
    rfl
  have met : List.Forall₂ TypeParam.MetBy params args := by
    refine .cons ?_ (.cons ?_ .nil)
    · rintro _ ⟨⟩
      rfl
    · rintro _ ⟨⟩
  obtain ⟨lowered, after, ran, means⟩ :=
    synonyms_not_expanded {} none reachable rfl isSynonym normalized resolved
  refine ⟨resolved, met, lowered, after, ran, ?_⟩
  intro t
  obtain ⟨applied, expanded⟩ := (means t none rfl).2 written args rfl met
  exact ⟨applied, expanded.mpr ⟨_, _, rfl, rfl⟩⟩

/-- Applied to its argument, a synonym of arrays does not mean an array. -/
theorem array_synonym_not_expanded :
    let decl : Source.TypeDecl := {
      name := "List", typeParams := [⟨"T", none⟩], body := .synonym (.array (.named "T")) }
    let ty : Ty := .array (.var "T" none)
    ∃ lowered after, (lowerTypeDecl decl).run {} {} = (.ok lowered, after) ∧
      ((resolve none (.generic "List" [.named "i32"])).run {} after).1 = .ok (.generic ty [.i32]) ∧
      ty.filled (TypeInfo.bindingsOf ⟨"List", ty, decl.typeParams⟩ [.i32]) = .array .i32 ∧
      (Ty.generic ty [.i32]).same (.array .i32) = false :=
  ⟨_, _, rfl, rfl, rfl, rfl⟩

end Lower

end ModuleTyping
