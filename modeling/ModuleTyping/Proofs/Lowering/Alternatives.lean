import ModuleTyping.Proofs.Dict
import ModuleTyping.Proofs.Lowering.Bodies
import ModuleTyping.Proofs.Ty.Sameness

/-!
# Variables of alternative patterns

The variables of all alternatives of a pattern are bound in the one scope of its arm, where the
last of several bindings of one name stands. A match takes one alternative of each, so what it
binds is one of the `ways` of the pattern, and a name that the body refers to need not be bound
in all of them.

Where the alternatives of every or-pattern bind the same names to the same types, each way binds
what the scope says (`sameLocals_of_mem_ways`), and every variable of the pattern has a value of
its type (`Agreeing.held`). That is a fact about patterns; what lowering adds is that the body
reads each variable with the type that the scope gives it (`fit_lowerArms`).
-/

namespace ModuleTyping

/-! ### References -/

namespace Typed

/-- A name that a body refers to. One that is read has a type; one that is assigned to is just
named. -/
structure Reference where
  name : String
  ty : Option Ty

/-- The references to other names than these. -/
def outside (names : Locals) (refs : List Reference) : List Reference :=
  refs.filter fun ref => (names.lookup ref.name).isNone

mutual

/-- The references of an expression to names that are not bound in it. -/
def Expr.refs : Expr → List Reference
  | ⟨form, ty, _⟩ => form.refs ty

/-- The references of an expression of this form and type. -/
def ExprForm.refs (ty : Ty) : ExprForm → List Reference
  | .literal _ => []
  | .var name => [⟨name, some ty⟩]
  | .functionRef _ => []
  | .binary _ lhs rhs => lhs.refs ++ rhs.refs
  | .unary _ operand => operand.refs
  | .call callee args => callee.refs ++ refsAll args
  | .member object _ => object.refs
  | .index object position => object.refs ++ position.refs
  | .record _ fields => refsFields fields
  | .ifElse condition thenBranch none => condition.refs ++ thenBranch.refs
  | .ifElse condition thenBranch (some elseBranch) =>
    condition.refs ++ thenBranch.refs ++ elseBranch.refs
  | .matching scrutinee arms => scrutinee.refs ++ refsArms arms
  | .lambda params body => outside (paramBinders params) body.refs
  | .block stmts none => refsStmts stmts
  | .block stmts (some result) => refsStmts stmts ++ outside (stmtBinders stmts) result.refs
  | .array elements => refsAll elements

/-- The references of what is called. -/
def Callee.refs : Callee → List Reference
  | .function _ => []
  | .builtin _ => []
  | .method receiver _ => receiver.refs
  | .value callee => callee.refs

/-- The references of expressions. -/
def refsAll : List Expr → List Reference
  | [] => []
  | e :: rest => e.refs ++ refsAll rest

/-- The references of fields. -/
def refsFields : List (String × Expr) → List Reference
  | [] => []
  | (_, e) :: rest => e.refs ++ refsFields rest

/-- The references of arms, in each to other names than its pattern binds. -/
def refsArms : List Arm → List Reference
  | [] => []
  | ⟨pattern, body⟩ :: rest => outside pattern.binders body.refs ++ refsArms rest

/-- The references of a statement. -/
def Stmt.refs : Stmt → List Reference
  | ⟨form, _⟩ => form.refs

/-- The references of a statement of this form. -/
def StmtForm.refs : StmtForm → List Reference
  | .bind _ _ _ value => value.refs
  | .assign target value => ⟨target, none⟩ :: value.refs
  | .expr value => value.refs
  | .return none => []
  | .return (some value) => value.refs
  | .ifElse condition thenBody elseBody =>
    condition.refs ++ refsStmts thenBody ++ refsStmts elseBody
  | .whileLoop condition body => condition.refs ++ refsStmts body
  | .forEach name ty iterable body => iterable.refs ++ outside [(name, ty)] (refsStmts body)
  | .leave => []
  | .next => []

/-- The references of statements, in each to other names than those before it bind. -/
def refsStmts : List Stmt → List Reference
  | [] => []
  | stmt :: rest => stmt.refs ++ outside stmt.binders (refsStmts rest)

end

/-- The references that are read have the types which these names are bound to, as far as they
are references to these names. -/
def Fit (Γ : Locals) (refs : List Reference) : Prop :=
  ∀ ref ∈ refs, ∀ ty recorded, ref.ty = some ty → Γ.lookup ref.name = some recorded → ty = recorded

variable {Γ : Locals} {refs refs' : List Reference}

@[simp] theorem fit_nil : Fit Γ [] := by
  intro ref member
  cases member

@[simp] theorem fit_append : Fit Γ (refs ++ refs') ↔ Fit Γ refs ∧ Fit Γ refs' :=
  List.forall_mem_append

theorem fit_singleton {name : String} {ty : Ty}
    (recorded : ∀ other, Γ.lookup name = some other → ty = other) : Fit Γ [⟨name, some ty⟩] := by
  intro ref member _ other read bound
  cases List.mem_singleton.mp member
  cases read
  exact recorded other bound

theorem fit_assigned {name : String} (fit : Fit Γ refs) : Fit Γ (⟨name, none⟩ :: refs) :=
  List.forall_mem_cons.mpr ⟨by rintro _ _ ⟨⟩, fit⟩

theorem Fit.outside {names : Locals} (fit : Fit (names ++ Γ) refs) :
    Fit Γ (outside names refs) := by
  intro ref member ty recorded read bound
  obtain ⟨member, other⟩ := List.mem_filter.mp member
  refine fit ref member ty recorded read ?_
  rw [List.lookup_append, Option.isNone_iff_eq_none.mp other, bound]
  rfl

end Typed

namespace Elaborates

open Typed (Fit)

variable {S : Surroundings}

theorem Callee.refs {name : String} {callee : Typed.Callee} (resolved : Callee S name callee) :
    callee.refs = [] := by
  cases resolved <;> rw [Typed.Callee.refs]

theorem Name.fit {Γ : Locals} {name : String} {form : Typed.ExprForm} {ty : Ty}
    (resolved : Name S Γ name form ty) : Fit Γ (form.refs ty) := by
  cases resolved with
  | bound found =>
      rw [Typed.ExprForm.refs]
      exact Typed.fit_singleton fun _ bound => Option.some.inj (found.symm.trans bound)
  | constructor _ _ callee => simp [Typed.ExprForm.refs, Typed.refsAll, callee.refs]
  | function => simp [Typed.ExprForm.refs]
  | truth => simp [Typed.ExprForm.refs]
  | builtin unbound =>
      rw [Typed.ExprForm.refs]
      refine Typed.fit_singleton fun _ bound => ?_
      cases unbound.symm.trans bound

mutual

theorem Expr.fit {Γ : Locals} {e : Source.Expr} {e' : Typed.Expr} :
    Expr S Γ e e' → Fit Γ e'.refs
  | .mk form => by
      rw [Typed.Expr.refs]
      exact form.fit

theorem Form.fit {Γ : Locals} {form : Source.ExprForm} {form' : Typed.ExprForm} {ty : Ty} :
    Form S Γ form form' ty → Fit Γ (form'.refs ty)
  | .literal => by
      rw [Typed.ExprForm.refs]
      exact Typed.fit_nil
  | .name resolved => resolved.fit
  | .binary lhs rhs => by
      rw [Typed.ExprForm.refs, Typed.fit_append]
      exact ⟨lhs.fit, rhs.fit⟩
  | .unary operand => by
      rw [Typed.ExprForm.refs]
      exact operand.fit
  | .moduleFunction _ => by
      rw [Typed.ExprForm.refs]
      exact Typed.fit_nil
  | .member _ object => by
      rw [Typed.ExprForm.refs]
      exact object.fit
  | .callName _ callee args => by
      rw [Typed.ExprForm.refs, callee.refs]
      exact args.fit
  | .callModuleFunction _ args => by
      rw [Typed.ExprForm.refs, Typed.Callee.refs]
      exact args.fit
  | .callField _ object args => by
      rw [Typed.ExprForm.refs, Typed.Callee.refs, Typed.Expr.refs, Typed.ExprForm.refs,
        Typed.fit_append]
      exact ⟨object.fit, args.fit⟩
  | .callMethod _ object args => by
      rw [Typed.ExprForm.refs, Typed.Callee.refs, Typed.fit_append]
      exact ⟨object.fit, args.fit⟩
  | .callValue _ callee args => by
      rw [Typed.ExprForm.refs, Typed.Callee.refs, Typed.fit_append]
      exact ⟨callee.fit, args.fit⟩
  | .index object position => by
      rw [Typed.ExprForm.refs, Typed.fit_append]
      exact ⟨object.fit, position.fit⟩
  | .record fields => by
      rw [Typed.ExprForm.refs]
      exact fields.fit
  | .ifThen condition thenBranch => by
      rw [Typed.ExprForm.refs, Typed.fit_append]
      exact ⟨condition.fit, thenBranch.fit⟩
  | .ifElse condition thenBranch elseBranch => by
      rw [Typed.ExprForm.refs, Typed.fit_append, Typed.fit_append]
      exact ⟨⟨condition.fit, thenBranch.fit⟩, elseBranch.fit⟩
  | .matching scrutinee arms => by
      rw [Typed.ExprForm.refs, Typed.fit_append]
      exact ⟨scrutinee.fit, arms.fit⟩
  | .lambda _ _ body => by
      rw [Typed.ExprForm.refs]
      exact body.fit.outside
  | .block stmts => by
      rw [Typed.ExprForm.refs]
      exact stmts.fit
  | .blockValue stmts result => by
      rw [Typed.ExprForm.refs, Typed.fit_append]
      exact ⟨stmts.fit, result.fit.outside⟩
  | .array elements => by
      rw [Typed.ExprForm.refs]
      exact elements.fit

theorem Exprs.fit {Γ : Locals} {es : List Source.Expr} {es' : List Typed.Expr} :
    Exprs S Γ es es' → Fit Γ (Typed.refsAll es')
  | .nil => by
      rw [Typed.refsAll]
      exact Typed.fit_nil
  | .cons e rest => by
      rw [Typed.refsAll, Typed.fit_append]
      exact ⟨e.fit, rest.fit⟩

theorem Fields.fit {Γ : Locals} {fields : List (String × Source.Expr)}
    {fields' : List (String × Typed.Expr)} :
    Fields S Γ fields fields' → Fit Γ (Typed.refsFields fields')
  | .nil => by
      rw [Typed.refsFields]
      exact Typed.fit_nil
  | .cons e rest => by
      rw [Typed.refsFields, Typed.fit_append]
      exact ⟨e.fit, rest.fit⟩

theorem Arms.fit {Γ : Locals} {arms : List Source.Arm} {arms' : List Typed.Arm} :
    Arms S Γ arms arms' → Fit Γ (Typed.refsArms arms')
  | .nil => by
      rw [Typed.refsArms]
      exact Typed.fit_nil
  | .cons _ body rest => by
      rw [Typed.refsArms, Typed.fit_append]
      exact ⟨body.fit.outside, rest.fit⟩

theorem Stmt.fit {Γ : Locals} {stmt : Source.Stmt} {stmt' : Typed.Stmt} :
    Stmt S Γ stmt stmt' → Fit Γ stmt'.refs
  | .mk form => by
      rw [Typed.Stmt.refs]
      exact form.fit

theorem StmtForm.fit {Γ : Locals} {form : Source.StmtForm} {form' : Typed.StmtForm} :
    StmtForm S Γ form form' → Fit Γ form'.refs
  | .bind value _ _ => by
      rw [Typed.StmtForm.refs]
      exact value.fit
  | .assign _ value => by
      rw [Typed.StmtForm.refs]
      exact Typed.fit_assigned value.fit
  | .expr value => by
      rw [Typed.StmtForm.refs]
      exact value.fit
  | .return => by
      rw [Typed.StmtForm.refs]
      exact Typed.fit_nil
  | .returnValue value => by
      rw [Typed.StmtForm.refs]
      exact value.fit
  | .ifElse condition thenBody elseBody => by
      rw [Typed.StmtForm.refs, Typed.fit_append, Typed.fit_append]
      exact ⟨⟨condition.fit, thenBody.fit⟩, elseBody.fit⟩
  | .whileLoop condition body => by
      rw [Typed.StmtForm.refs, Typed.fit_append]
      exact ⟨condition.fit, body.fit⟩
  | .forEach iterable body => by
      rw [Typed.StmtForm.refs, Typed.fit_append]
      exact ⟨iterable.fit, Typed.Fit.outside body.fit⟩
  | .leave => by
      rw [Typed.StmtForm.refs]
      exact Typed.fit_nil
  | .next => by
      rw [Typed.StmtForm.refs]
      exact Typed.fit_nil

theorem Stmts.fit {Γ : Locals} {stmts : List Source.Stmt} {stmts' : List Typed.Stmt} :
    Stmts S Γ stmts stmts' → Fit Γ (Typed.refsStmts stmts')
  | .nil => by
      rw [Typed.refsStmts]
      exact Typed.fit_nil
  | .cons stmt rest => by
      rw [Typed.refsStmts, Typed.fit_append]
      exact ⟨stmt.fit, rest.fit.outside⟩

end

/-- Every arm's body refers to the names of its pattern and to those around by their types. -/
theorem Arms.fit_body {Γ : Locals} {arms : List Source.Arm} {arms' : List Typed.Arm}
    (elaborates : Arms S Γ arms arms') :
    ∀ arm ∈ arms', Fit (arm.pattern.binders ++ Γ) arm.body.refs := by
  induction arms' generalizing arms with
  | nil =>
      intro arm member
      cases member
  | cons first rest ih =>
      cases elaborates with
      | cons _ body others => exact List.forall_mem_cons.mpr ⟨body.fit, ih others⟩

end Elaborates

/-! ### Alternatives -/

/-- The names are bound in both or in neither, and then to the same types. -/
def SameLocals (a b : Locals) : Prop :=
  ∀ name, Option.Rel (fun s t => s.same t = true) (a.lookup name) (b.lookup name)

namespace SameLocals

variable {a b c d : Locals}

theorem refl (a : Locals) : SameLocals a a :=
  fun _ => rel_refl Ty.same_refl _

theorem trans (first : SameLocals a b) (second : SameLocals b c) : SameLocals a c :=
  fun name => rel_trans (first name) (second name) fun _ _ _ => Ty.same_trans

theorem append (later : SameLocals a b) (earlier : SameLocals c d) :
    SameLocals (a ++ c) (b ++ d) := by
  intro name
  rw [List.lookup_append, List.lookup_append]
  exact rel_or (later name) (earlier name)

/-- Names that are bound a second time, to the same types, might as well be bound once. -/
theorem absorb (later : SameLocals a b) (earlier : SameLocals a c) : SameLocals a (b ++ c) := by
  intro name
  have twice := later.append earlier name
  rwa [List.lookup_append, Option.or_self] at twice

end SameLocals

namespace Typed

namespace Pattern

mutual

/-- The names that a match can bind, for each choice of one alternative wherever there are some.
The most recent come first. -/
def ways : Pattern → List Locals
  | wildcard => [[]]
  | bind name ty => [[(name, ty)]]
  | literal _ => [[]]
  | constructor _ fields _ => waysAll fields
  | or alternatives => waysAny alternatives

/-- The names that a match of all patterns can bind. -/
def waysAll : List Pattern → List Locals
  | [] => [[]]
  | pattern :: patterns =>
    pattern.ways.flatMap fun first => (waysAll patterns).map (· ++ first)

/-- The names that a match of one of the patterns can bind. -/
def waysAny : List Pattern → List Locals
  | [] => []
  | pattern :: patterns => pattern.ways ++ waysAny patterns

end

mutual

/-- Wherever the pattern has alternatives, they bind the same names to the same types. -/
def Agreeing : Pattern → Prop
  | wildcard => True
  | bind _ _ => True
  | literal _ => True
  | constructor _ fields _ => AgreeingAll fields
  | or alternatives => AgreeingAll alternatives ∧
    ∀ a ∈ alternatives, ∀ b ∈ alternatives, SameLocals a.binders b.binders

/-- The alternatives in each of the patterns agree. -/
def AgreeingAll : List Pattern → Prop
  | [] => True
  | pattern :: patterns => pattern.Agreeing ∧ AgreeingAll patterns

end

/-- What an alternative binds stands when all of them are bound. -/
theorem sameLocals_bindersAll {names : Locals} : ∀ {alternatives : List Pattern},
    alternatives ≠ [] → (∀ b ∈ alternatives, SameLocals names b.binders) →
      SameLocals names (bindersAll alternatives)
  | [b], _, same => by
      simpa [bindersAll] using same b (.head _)
  | b :: c :: rest, _, same => by
      rw [bindersAll]
      obtain ⟨first, others⟩ := List.forall_mem_cons.mp same
      exact (sameLocals_bindersAll (List.cons_ne_nil c rest) others).absorb first

mutual

/-- Whichever alternatives are taken, a pattern whose alternatives agree binds the names that
are bound in its scope, to the same types. -/
theorem sameLocals_of_mem_ways : ∀ {pattern : Pattern}, pattern.Agreeing →
    ∀ names ∈ pattern.ways, SameLocals names pattern.binders
  | wildcard, _, names, taken => by
      rw [ways, List.mem_singleton] at taken
      rw [taken, binders]
      exact .refl []
  | bind name ty, _, names, taken => by
      rw [ways, List.mem_singleton] at taken
      rw [taken, binders]
      exact .refl _
  | literal _, _, names, taken => by
      rw [ways, List.mem_singleton] at taken
      rw [taken, binders]
      exact .refl []
  | constructor _ fields _, agreeing, names, taken => by
      rw [ways] at taken
      rw [Agreeing] at agreeing
      rw [binders]
      exact sameLocals_of_mem_waysAll agreeing names taken
  | or alternatives, agreeing, names, taken => by
      rw [ways] at taken
      rw [Agreeing] at agreeing
      rw [binders]
      -- The alternative taken agrees with each of the others, and so with the last, which stands.
      obtain ⟨pattern, member, same⟩ := exists_of_mem_waysAny agreeing.1 names taken
      exact same.trans (sameLocals_bindersAll (List.ne_nil_of_mem member)
        (agreeing.2 pattern member))

theorem sameLocals_of_mem_waysAll : ∀ {patterns : List Pattern}, AgreeingAll patterns →
    ∀ names ∈ waysAll patterns, SameLocals names (bindersAll patterns)
  | [], _, names, taken => by
      rw [waysAll, List.mem_singleton] at taken
      rw [taken, bindersAll]
      exact .refl []
  | pattern :: patterns, agreeing, names, taken => by
      rw [AgreeingAll] at agreeing
      rw [waysAll, List.mem_flatMap] at taken
      obtain ⟨first, taken, rest⟩ := taken
      obtain ⟨later, taken', rfl⟩ := List.mem_map.mp rest
      rw [bindersAll]
      exact (sameLocals_of_mem_waysAll agreeing.2 later taken').append
        (sameLocals_of_mem_ways agreeing.1 first taken)

theorem exists_of_mem_waysAny : ∀ {patterns : List Pattern}, AgreeingAll patterns →
    ∀ names ∈ waysAny patterns, ∃ pattern ∈ patterns, SameLocals names pattern.binders
  | [], _, names, taken => by
      rw [waysAny] at taken
      cases taken
  | pattern :: patterns, agreeing, names, taken => by
      rw [AgreeingAll] at agreeing
      rw [waysAny, List.mem_append] at taken
      rcases taken with taken | taken
      · exact ⟨pattern, .head _, sameLocals_of_mem_ways agreeing.1 names taken⟩
      · obtain ⟨other, member, same⟩ := exists_of_mem_waysAny agreeing.2 names taken
        exact ⟨other, .tail _ member, same⟩

end

/-- Whichever alternatives are taken, what a pattern binds has a value of its type, if the
alternatives agree. -/
theorem Agreeing.held {pattern : Pattern} (agreeing : pattern.Agreeing) {name : String} {ty : Ty}
    (bound : pattern.binders.lookup name = some ty) {names : Locals}
    (taken : names ∈ pattern.ways) :
    ∃ held, names.lookup name = some held ∧ held.same ty = true := by
  have same := sameLocals_of_mem_ways agreeing names taken name
  rw [bound] at same
  generalize names.lookup name = held at same ⊢
  cases same with
  | some same => exact ⟨_, rfl, same⟩

end Pattern

end Typed

/-! ### Accepted arms -/

/-- The names of all scopes, those of the innermost first. -/
def Scopes.locals (scopes : Scopes) : Locals :=
  (scopes.inner :: scopes.outer).flatMap Dict.entries

theorem Scopes.lookup_locals (scopes : Scopes) (name : String) :
    scopes.locals.lookup name = scopes.lookup? name := by
  unfold locals lookup?
  generalize scopes.inner :: scopes.outer = dicts
  induction dicts with
  | nil => rfl
  | cons dict dicts ih =>
      rw [List.flatMap_cons, List.lookup_append, ih, Dict.lookup_entries, List.findSome?_cons]
      cases dict.get? name <;> rfl

/-- What a pass sees in a state. -/
def LowerState.surroundings (s : LowerState) : Surroundings where
  types := s.env.types
  functions := s.env.functions
  constructors := s.env.constructors
  typeParams := s.typeParams

theorem Stands.of_state (s : LowerState) : Stands s.surroundings s.env.scopes.locals s where
  locals name := (s.env.scopes.lookup_locals name).symm
  types := rfl
  functions := rfl
  constructors := rfl
  typeParams := rfl

namespace Lower

/-- The body of an accepted arm reads the names that the pattern binds with the types that they
are bound to. -/
theorem fit_lowerArms {c : Context} {s : LowerState} (standard : c.engine = .standard)
    {arms : List Source.Arm} {scrutinee : Ty} {expected : Option Ty} {lowered : List Typed.Arm}
    (ran : Yields c s (lowerArms arms scrutinee expected) lowered) :
    ∀ arm ∈ lowered, Typed.Fit arm.pattern.binders arm.body.refs := by
  intro arm member ref refers read ty isRead bound
  have elaborates := elaborates_lowerArms standard arms scrutinee expected (.of_state s) ran
  refine elaborates.fit_body arm member ref refers read ty isRead ?_
  rw [List.lookup_append, bound, Option.some_or]

/-- A name that the body of an accepted arm refers to and that the pattern binds has, where it is
read, the type of the last binding of it in the pattern, alternatives included. If the
alternatives of all or-patterns agree, it is bound to a value of that type whichever of them
matched. -/
theorem variables_of_alternatives (config : Config) (source : Option (String → Option Summary))
    {s after : LowerState} {arms : List Source.Arm} {scrutinee : Ty} {expected : Option Ty}
    {lowered : List Typed.Arm}
    (accepted : (lowerArms arms scrutinee expected).run { config, source } s =
      (.ok lowered, after)) :
    (∀ arm ∈ lowered, ∀ ref ∈ arm.body.refs, ∀ ty,
      arm.pattern.binders.lookup ref.name = some ty → ∀ read, ref.ty = some read → read = ty) ∧
    ∀ arm ∈ lowered, arm.pattern.Agreeing → ∀ ref ∈ arm.body.refs, ∀ ty,
      arm.pattern.binders.lookup ref.name = some ty → ∀ names ∈ arm.pattern.ways, ∃ held,
        names.lookup ref.name = some held ∧ held.same ty = true := by
  have fits := fit_lowerArms (c := { config, source }) rfl (congrArg Prod.fst accepted)
  constructor
  · intro arm member ref refers ty bound read isRead
    exact fits arm member ref refers read ty isRead bound
  · intro arm _ agreeing ref _ ty bound names taken
    exact agreeing.held bound taken

/-- The alternatives are those of a field, and both bind the variable that the body reads. -/
theorem variables_of_alternatives_nested :
    let choice : Ty := .sum "Choice" [("Left", [.i32]), ("Right", [.bool, .i32])]
    let pair : Ty := .sum "Pair" [("Both", [choice, .i32])]
    let first := (∅ : ConstructorTable).registerSum ∅ { name := "Choice", ty := choice } {}
    let second := first.2.1.registerSum first.2.2 { name := "Pair", ty := pair } {}
    let s : LowerState := { env := { constructors := second.2.1, functions := second.2.2 } }
    let arms : List Source.Arm := [
      ⟨.constructor "Both" [
          .or [.constructor "Left" [.bind "n"], .constructor "Right" [.wildcard, .bind "n"]],
          .bind "m"],
        ⟨.var "n", none⟩, none⟩]
    ∃ arm after, (lowerArms arms pair none).run {} s = (.ok [arm], after) ∧
      arm.pattern.Agreeing ∧ arm.pattern.ways.length = 2 ∧
      ∀ names ∈ arm.pattern.ways, ∃ held,
        names.lookup "n" = some held ∧ held.same .i32 = true := by
  intro choice pair first second s arms
  let arm : Typed.Arm := ⟨.constructor "Both" [
      .or [.constructor "Left" [.bind "n" .i32] choice,
        .constructor "Right" [.wildcard, .bind "n" .i32] choice],
      .bind "m" .i32] pair,
    ⟨.var "n", .i32, none⟩⟩
  have accepted : (lowerArms arms pair none).run {} s = (.ok [arm], s) := by
    dsimp only [arms, s, arm, second, first, pair, choice]
    rfl
  have agreeing : arm.pattern.Agreeing := by
    simp [arm, Typed.Pattern.Agreeing, Typed.Pattern.AgreeingAll, Typed.Pattern.binders,
      Typed.Pattern.bindersAll, SameLocals.refl]
  obtain ⟨-, held⟩ := variables_of_alternatives {} none accepted
  exact ⟨arm, s, accepted, agreeing, rfl,
    held arm (.head _) agreeing ⟨"n", some .i32⟩ (.head _) .i32 rfl⟩

/-- The body reads a variable that the second alternative does not bind. -/
theorem variable_without_value :
    let choice : Ty := .sum "Choice" [("Left", [.i32]), ("Right", [])]
    let tables := (∅ : ConstructorTable).registerSum ∅ { name := "Choice", ty := choice } {}
    let s : LowerState := { env := { constructors := tables.2.1, functions := tables.2.2 } }
    let arms : List Source.Arm := [
      ⟨.or [.constructor "Left" [.bind "n"], .constructor "Right" []], ⟨.var "n", none⟩, none⟩]
    ∃ arm after, (lowerArms arms choice none).run {} s = (.ok [arm], after) ∧
      arm.pattern.binders.lookup "n" = some .i32 ∧ ⟨"n", some .i32⟩ ∈ arm.body.refs ∧
      ¬ arm.pattern.Agreeing ∧ [] ∈ arm.pattern.ways := by
  intro choice tables s arms
  let arm : Typed.Arm := ⟨.or [.constructor "Left" [.bind "n" .i32] choice,
    .constructor "Right" [] choice], ⟨.var "n", .i32, none⟩⟩
  have accepted : (lowerArms arms choice none).run {} s = (.ok [arm], s) := by
    dsimp only [arms, s, arm, tables, choice]
    rfl
  refine ⟨arm, s, accepted, rfl, .head _, ?_, .tail _ (.head _)⟩
  intro agreeing
  rw [Typed.Pattern.Agreeing] at agreeing
  cases agreeing.2 _ (.head _) _ (.tail _ (.head _)) "n"

end Lower

end ModuleTyping
