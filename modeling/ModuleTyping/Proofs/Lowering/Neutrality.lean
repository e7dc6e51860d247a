import ModuleTyping.Lowering.Expressions
import ModuleTyping.Proofs.Lowering.Footprint

/-!
# Lowering leaves the state as it was

Lowering an expression leaves nothing behind but announcements, whatever it comes to:
scopes, type parameters and result types entered on the way are left again, and no table
is written to. A statement leaves one more thing, and only if it is a binding that
succeeds: the bound name in the innermost scope.

The proof goes over the syntax with `Acts`: expressions are quiet, a statement declares
what it binds, and sequences of statements and of patterns bind what their parts bind,
until the scope around them is left.
-/

namespace ModuleTyping

namespace Typed

namespace Pattern

mutual

/-- The names a pattern binds, the most recent first. All alternatives count. -/
def binders : Pattern → Locals
  | wildcard => []
  | bind name ty => [(name, ty)]
  | literal _ => []
  | constructor _ fields _ => bindersAll fields
  | or alternatives => bindersAll alternatives

/-- The names that patterns bind one after another. -/
def bindersAll : List Pattern → Locals
  | [] => []
  | pattern :: patterns => bindersAll patterns ++ pattern.binders

end

end Pattern

/-- The name a statement binds for those after it. -/
def Stmt.binders (stmt : Stmt) : Locals :=
  match stmt.form with
  | .bind name _ ty _ => [(name, ty)]
  | _ => []

/-- The lowered statement binds these names as the source says: a binding its name, with the
type that is recorded, and any other statement none. -/
def Stmt.Lets (form : Source.StmtForm) (stmt : Stmt) (names : Locals) : Prop :=
  match form with
  | .bind name mutable _ _ =>
    ∃ ty value, stmt.form = .bind name mutable ty value ∧ names = [(name, ty)]
  | _ => stmt.binders = [] ∧ names = []

theorem Stmt.Lets.eq_binders {form : Source.StmtForm} {stmt : Stmt} {names : Locals}
    (lets : stmt.Lets form names) : names = stmt.binders := by
  cases form with
  | bind name mutable written value =>
      obtain ⟨ty, value, lowered, rfl⟩ := lets
      simp [binders, lowered]
  | _ => exact lets.2.trans lets.1.symm

/-- The names that statements bind one after another, the most recent first. -/
def stmtBinders : List Stmt → Locals
  | [] => []
  | stmt :: stmts => stmtBinders stmts ++ stmt.binders

/-- The names that parameters bind, the most recent first. -/
def paramBinders : List Param → Locals
  | [] => []
  | param :: params => paramBinders params ++ [(param.name, param.ty)]

end Typed

open Typed (stmtBinders paramBinders)

namespace Lower

variable {agree : FunctionTable → FunctionTable → Prop}

/-! ### Written types -/

theorem quiet_resolveName (name : String) (origin : Origin) :
    Quiet agree (resolveName name origin) := by
  unfold resolveName
  split
  · exact .pure rfl
  · exact .pure rfl
  · refine .env_bind (fun s t states => by rw [states.types]) fun env => ?_
    split
    · exact .pure rfl
    · exact .fail rfl _

theorem isTypeError_of_validate {declaration : String} {params : List TypeParam}
    {args : List Ty} {cause : Cause}
    (failed : TypeParam.validate declaration params args = .error cause) :
    cause.kind.isTypeError = false := by
  induction params generalizing args with
  | nil => simp [TypeParam.validate] at failed
  | cons param params ih =>
      cases args with
      | nil => simp [TypeParam.validate] at failed
      | cons arg args =>
          rw [TypeParam.validate] at failed
          split at failed
          · unfold Constraint.known at failed
            split at failed
            · split at failed
              · exact ih failed
              · cases failed
                rfl
            · cases failed
              rfl
          · exact ih failed

theorem quiet_applyType (name : String) (args : List Ty) (origin : Origin) :
    Quiet agree (applyType name args origin) := by
  unfold applyType
  refine .env_bind (fun s t states => by rw [states.types]) fun env => ?_
  split
  · split
    · exact .pure rfl
    · exact .fail rfl _
  · split
    · exact .fail rfl _
    · refine Quiet.bind (.ofExcept (fun _ => isTypeError_of_validate) _) fun _ => .pure rfl

mutual

theorem quiet_resolve (origin : Origin) : ∀ ty, Quiet agree (resolve origin ty)
  | .named name => by
      rw [resolve]
      refine .get_bind (fun s t states => by rw [states.typeParams]) fun state => ?_
      split
      · exact .pure rfl
      · exact quiet_resolveName name origin
  | .generic name args => by
      rw [resolve]
      exact (quiet_resolveAll origin args).bind fun args => quiet_applyType name args origin
  | .array element => by
      rw [resolve]
      exact (quiet_resolve origin element).bind fun _ => .pure rfl
  | .function params result => by
      rw [resolve]
      refine (quiet_resolveAll origin params).bind fun _ => ?_
      exact (quiet_resolve origin result).bind fun _ => .pure rfl
  | .ref referent => by
      rw [resolve]
      exact (quiet_resolve origin referent).bind fun _ => .pure rfl
  | .mutRef referent => by
      rw [resolve]
      exact (quiet_resolve origin referent).bind fun _ => .pure rfl
  | .map key value => by
      rw [resolve]
      refine (quiet_resolve origin key).bind fun _ => ?_
      exact (quiet_resolve origin value).bind fun _ => .pure rfl
  | .unit => by
      rw [resolve]
      exact .pure rfl

theorem quiet_resolveAll (origin : Origin) : ∀ tys, Quiet agree (resolveAll origin tys)
  | [] => by
      rw [resolveAll]
      exact .pure rfl
  | ty :: tys => by
      rw [resolveAll]
      refine (quiet_resolve origin ty).bind fun _ => ?_
      exact (quiet_resolveAll origin tys).bind fun _ => .pure rfl

end

theorem quiet_resolve? (origin : Origin) (ty : Option WrittenType) :
    Quiet agree (resolve? origin ty) := by
  cases ty with
  | none => exact .pure rfl
  | some ty => exact (quiet_resolve origin ty).bind fun _ => .pure rfl

/-! ### Patterns -/

theorem quiet_constructorFor (name : String) (fieldCount : Nat) (scrutinee : Ty)
    (origin : Origin) : Quiet agree (constructorFor name fieldCount scrutinee origin) := by
  unfold constructorFor
  refine .env_bind (fun s t states => by rw [states.constructors]) fun env => ?_
  split
  · exact .fail rfl _
  · refine Quiet.bind (.check (Check.candid_compatible _ _ _ _)) fun _ => ?_
    split
    · exact .pure rfl
    · exact .fail rfl _

mutual

theorem binds_lowerPattern (origin : Origin) : ∀ pattern scrutinee,
    Acts agree (Binds Typed.Pattern.binders) (lowerPattern origin pattern scrutinee)
  | .wildcard, scrutinee => by
      rw [lowerPattern]
      exact .pure rfl
  | .bind name, scrutinee => by
      rw [lowerPattern]
      refine .env_bind (fun s t states => by rw [states.constructors]) fun env => ?_
      split
      · refine (quiet_constructorFor name 0 scrutinee origin).bind_binds fun _ => ?_
        exact .pure rfl
      · have declares : Acts agree
            (Declares fun pattern names => names = Typed.Pattern.binders pattern)
            (do bind name scrutinee; return .bind name scrutinee) := .bind_name_pure rfl
        exact declares.binds fun _ _ bound => bound
  | .literal value, scrutinee => by
      rw [lowerPattern]
      exact Quiet.bind_binds (.check (Check.candid_compatible _ _ _ _)) fun _ => .pure rfl
  | .constructor name fields, scrutinee => by
      rw [lowerPattern]
      refine (quiet_constructorFor name _ scrutinee origin).bind_binds fun sig => ?_
      exact (binds_lowerFields origin fields sig.params).map fun _ => rfl
  | .or alternatives, scrutinee => by
      rw [lowerPattern]
      exact (binds_lowerAlternatives origin alternatives scrutinee).map fun _ => rfl

theorem binds_lowerFields (origin : Origin) : ∀ patterns tys,
    Acts agree (Binds Typed.Pattern.bindersAll) (lowerFields origin patterns tys)
  | pattern :: patterns, ty :: tys => by
      rw [lowerFields]
      exact (binds_lowerPattern origin pattern ty).both (binds_lowerFields origin patterns tys)
        fun _ _ => rfl
  | [], tys => by
      rw [lowerFields]
      exact .pure rfl
      nofun
  | _ :: _, [] => by
      rw [lowerFields]
      exact .pure rfl
      nofun

theorem binds_lowerAlternatives (origin : Origin) : ∀ patterns scrutinee,
    Acts agree (Binds Typed.Pattern.bindersAll) (lowerAlternatives origin patterns scrutinee)
  | [], scrutinee => by
      rw [lowerAlternatives]
      exact .pure rfl
  | pattern :: patterns, scrutinee => by
      rw [lowerAlternatives]
      exact (binds_lowerPattern origin pattern scrutinee).both
        (binds_lowerAlternatives origin patterns scrutinee) fun _ _ => rfl

end

/-! ### Names and calls -/

section Lookups

variable {s t : LowerState}

theorem nameType_congr (states : s.Alike FunctionTable.Alike t) (name : String) (origin : Origin) :
    s.env.nameType name origin = t.env.nameType name origin := by
  simp only [Environment.nameType, Environment.unknownName, FunctionTable.signature?,
    states.scopes, states.functions.entry?]

theorem callByName_congr (states : s.Alike FunctionTable.Alike t) (name : String) (args : List Ty)
    (expected : Option Ty) (origin : Origin) :
    s.env.callByName name args expected origin = t.env.callByName name args expected origin := by
  simp only [Environment.callByName, Environment.unknownName, states.scopes,
    states.functions.entry?]

theorem memberType_congr (states : s.Alike agree t) (object : Ty) (member : String)
    (origin : Origin) :
    s.env.memberType object member origin = t.env.memberType object member origin := by
  simp only [Environment.memberType, Environment.genericMember?, states.types]

theorem recordType_congr (states : s.Alike agree t) (name : Option String)
    (given : List (String × Ty)) (origin : Origin) :
    s.env.recordType name given origin = t.env.recordType name given origin := by
  simp only [Environment.recordType, Environment.namedRecord, Environment.bestCandidate?,
    states.types]

theorem globalName?_congr (states : s.Alike agree t) (e : Source.Expr) :
    e.globalName? s.env = e.globalName? t.env := by
  simp only [Source.Expr.globalName?, states.scopes]

end Lookups

theorem quiet_calleeOf (name : String) (origin : Origin) (target : CallTarget) :
    Quiet agree (calleeOf name origin target) := by
  unfold calleeOf
  split
  · exact .pure rfl
  · exact .pure rfl
  · exact .env_bind (fun s t states => by rw [states.scopes]) fun env => .pure rfl

theorem quiet_callNamed (name : String) (args : List Typed.Expr) (expected : Option Ty)
    (origin : Origin) : Quiet FunctionTable.Alike (callNamed name args expected origin) := by
  unfold callNamed
  refine .env_bind (fun s t states => by rw [callByName_congr states]) fun env => ?_
  refine Quiet.bind (.check (env.candid_callByName _ _ _ _)) fun call => ?_
  exact (quiet_calleeOf name origin call.target).bind fun _ => .pure rfl

theorem quiet_lowerName (name : String) (expected : Option Ty) (origin : Origin) :
    Quiet FunctionTable.Alike (lowerName name expected origin) := by
  unfold lowerName
  refine .env_bind (fun s t states => ?_) fun env => ?_
  · rw [states.scopes, states.constructors, states.functions.entry?, nameType_congr states]
  · split
    · exact .pure rfl
    · split
      · exact quiet_callNamed name [] expected origin
      · split
        · exact .pure rfl
        · split
          · exact .pure rfl
          · exact Quiet.bind (.check (env.candid_nameType _ _)) fun _ => .pure rfl

theorem quiet_moduleMember? (object : Source.Expr) (member : String) :
    Quiet FunctionTable.Alike (moduleMember? object member) := by
  unfold moduleMember?
  split
  · refine .env_bind (fun s t states => ?_) fun env => ?_
    · rw [states.scopes, states.functions.contains, states.functions.member?]
    · split
      · exact .pure rfl
      · exact .pure rfl
  · exact .pure rfl

theorem quiet_lambdaParams (origin : Origin) (params : List Source.LambdaParam)
    (expected : List Ty) : Quiet agree (lambdaParams origin params expected) := by
  induction params generalizing expected with
  | nil => exact .pure rfl
  | cons param params ih =>
      rw [lambdaParams]
      have rest (ty : Ty) : Quiet agree (do
          let rest ← lambdaParams origin params expected.tail
          return { name := param.name, ty } :: rest) :=
        (ih _).bind fun _ => .pure rfl
      split
      · exact (quiet_resolve origin _).bind rest
      · exact rest _

theorem binds_bindParams (params : List Typed.Param) :
    Acts agree (Binds fun _ => paramBinders params) (bindParams params) := by
  induction params with
  | nil => exact .pure rfl
  | cons param params ih =>
      rw [bindParams]
      refine (Acts.bind_name param.name param.ty).bind (fun _ => ih) (fun _ _ _ => trivial) ?_
      rintro _ names r names' rfl bound
      cases r with
      | error fault => trivial
      | ok _ =>
          obtain rfl : names' = paramBinders params := bound
          rfl

theorem candid_checkElements (element : Ty) (origin : Origin) (number : Nat)
    (elements : List Typed.Expr) : (checkElements element origin number elements).Candid := by
  induction elements generalizing number with
  | nil => exact .pure ()
  | cons e elements ih =>
      exact (Check.candid_compatible _ _ _ _).bind fun _ => ih (number + 1)

/-! ### Expressions and statements -/

/-- A call that is not one of a member. -/
theorem quiet_lowerCall {callee : Source.Expr} {args : List Source.Expr}
    (other : ∀ object method place, callee ≠ ⟨.member object method, place⟩)
    (callees : Quiet FunctionTable.Alike (lowerExpr callee none))
    (argss : ∀ expected, Quiet FunctionTable.Alike (lowerArgs args expected))
    (expected : Option Ty) (origin : Origin) :
    Quiet FunctionTable.Alike (lowerForm (.call callee args) expected origin) := by
  rw [lowerForm]
  · refine .env_bind (fun s t states => by rw [globalName?_congr states]) fun env => ?_
    split
    · refine .env_bind (fun s t states => ?_) fun env => ?_
      · simp only [FunctionTable.signature?, states.functions.entry?]
      · exact (argss _).bind fun args => quiet_callNamed _ args expected origin
    · refine callees.bind fun callee => ?_
      refine (argss _).bind fun args => ?_
      exact Quiet.bind (.check (Ty.candid_callResult _ _ _)) fun _ => .pure rfl
  · exact other

theorem quiet_lowerArm {pattern : Source.Pattern} {body : Source.Expr} {origin : Origin}
    {scrutinee : Ty} {expected : Option Ty}
    (bodies : Quiet FunctionTable.Alike (lowerExpr body expected)) :
    Quiet FunctionTable.Alike (inScope do
      let pattern ← lowerPattern origin pattern scrutinee
      let body ← lowerExpr body expected
      return (⟨pattern, body⟩ : Typed.Arm)) := by
  refine .inScope ((binds_lowerPattern origin pattern scrutinee).bind_any
    (g := fun _ _ _ => True) fun pattern => ?_)
  exact bodies.bind_any (g := fun _ _ _ => True) fun _ => .pure trivial

/-- The check of coverage comes last and does nothing but refuse. -/
theorem matchType_unchecked (types : TypeTable) (scrutinee : Ty) (arms : List Typed.Arm)
    (origin : Origin) (announced : List Mismatch) :
    (∃ fault, (Typed.matchType true types scrutinee arms origin announced).1 = .error fault ∧
      fault.kind = .nonExhaustiveMatch) ∨
    Typed.matchType true types scrutinee arms origin announced =
      Typed.matchType false types scrutinee arms origin announced := by
  cases arms with
  | nil => exact .inr rfl
  | cons first rest =>
      have checked : Typed.matchType true types scrutinee (first :: rest) origin =
          Typed.checkArms first.body.ty origin 1 (first :: rest) >>= fun _ =>
            Typed.checkCoverage types scrutinee (first :: rest) origin >>= fun _ =>
              pure first.body.ty := rfl
      have unchecked : Typed.matchType false types scrutinee (first :: rest) origin =
          Typed.checkArms first.body.ty origin 1 (first :: rest) >>= fun _ =>
            pure first.body.ty := rfl
      rw [checked, unchecked, Stateful.bind_apply, Stateful.bind_apply]
      rcases Typed.checkArms first.body.ty origin 1 (first :: rest) announced with
        ⟨fault | _, later⟩
      · exact .inr rfl
      · unfold Typed.checkCoverage
        cases Typed.uncovered types scrutinee ((first :: rest).map Typed.Arm.pattern) with
        | nil => exact .inr rfl
        | cons => exact .inl ⟨_, rfl, rfl⟩

theorem matching_settings {c c' : Context} (contexts : c.Relaxes c') (scrutinee : Typed.Expr)
    (arms : List Typed.Arm) (origin : Origin) (s : LowerState) :
    let lowered (context : Context) : Lower Typed.Expr := do
      let ty ← check (Typed.matchType context.config.checkExhaustiveness (← env).types
        scrutinee.ty arms origin)
      return ⟨.matching scrutinee arms, ty, origin⟩
    Uncovered c c' (lowered c c' s).1 ∨ lowered c c' s = lowered c' c' s := by
  intro lowered
  rcases contexts.equal_or_checks with equal | ⟨strict, lenient⟩
  · exact .inr (by simp only [lowered, equal])
  · have run (context : Context) : lowered context c' s =
        ((check (Typed.matchType context.config.checkExhaustiveness s.env.types scrutinee.ty
          arms origin) >>= fun ty => pure ⟨.matching scrutinee arms, ty, origin⟩ :
            Lower Typed.Expr) c' s) := rfl
    rw [run, run, strict, lenient, bind_apply, bind_apply]
    unfold check
    rcases matchType_unchecked s.env.types scrutinee.ty arms origin s.announced with
      ⟨fault, failed, kind⟩ | same
    · left
      generalize Typed.matchType true s.env.types scrutinee.ty arms origin s.announced = checked
        at failed ⊢
      obtain ⟨r, later⟩ := checked
      obtain rfl : r = .error fault := failed
      exact ⟨by simp only [strict, lenient, ne_eq, reduceCtorEq, not_false_iff], fault, rfl, kind⟩
    · exact .inr (by rw [same])

mutual

theorem quiet_lowerExpr : ∀ e expected, Quiet FunctionTable.Alike (lowerExpr e expected)
  | ⟨form, origin⟩, expected => by
      rw [lowerExpr]
      exact .dispatch (stage_expr _ _) (quiet_lowerForm form expected origin) _

theorem quiet_lowerForm : ∀ form expected origin,
    Quiet FunctionTable.Alike (lowerForm form expected origin)
  | .literal value, expected, origin => by
      rw [lowerForm]
      exact .pure rfl
  | .var name, expected, origin => by
      rw [lowerForm]
      exact quiet_lowerName name expected origin
  | .binary op lhs rhs, expected, origin => by
      rw [lowerForm]
      refine (quiet_lowerExpr lhs _).bind fun lhs => ?_
      refine (quiet_lowerExpr rhs _).bind fun rhs => ?_
      exact Quiet.bind (.check (op.candid_result _ _ _)) fun _ => .pure rfl
  | .unary op operand, expected, origin => by
      rw [lowerForm]
      refine (quiet_lowerExpr operand _).bind fun operand => ?_
      exact Quiet.bind (.check (op.candid_result _ _)) fun _ => .pure rfl
  | .call ⟨form, place⟩ args, expected, origin => by
      have callees := quiet_lowerExpr ⟨form, place⟩ none
      have argss := quiet_lowerArgs args
      cases form with
      | member object method =>
          rw [lowerForm]
          refine (quiet_moduleMember? object method).bind fun found => ?_
          split
          · refine (argss _).bind fun args => ?_
            refine Quiet.bind (.check (Environment.candid_callMember _ _ _ _ _ _)) fun call => ?_
            exact (quiet_calleeOf method origin call.target).bind fun _ => .pure rfl
          · refine (quiet_lowerExpr object none).bind fun receiver => ?_
            refine .env_bind (fun s t states => by rw [memberType_congr states]) fun env => ?_
            split
            · refine (argss _).bind fun args => ?_
              exact Quiet.bind (.check (Ty.candid_callResult _ _ _)) fun _ => .pure rfl
            · refine (quiet_lowerMethodArgs args _ _ _ _).bind fun args => ?_
              exact Quiet.bind (.check (Ty.candid_methodResult _ _ _ _)) fun _ => .pure rfl
      | _ => exact quiet_lowerCall (by simp) callees argss expected origin
  | .member object name, expected, origin => by
      rw [lowerForm]
      refine (quiet_moduleMember? object name).bind fun found => ?_
      split
      · exact .pure rfl
      · refine (quiet_lowerExpr object none).bind fun object => ?_
        refine .env_bind (fun s t states => by rw [memberType_congr states]) fun env => ?_
        exact Quiet.bind (.check (env.candid_memberType _ _ _)) fun _ => .pure rfl
  | .index object position, expected, origin => by
      rw [lowerForm]
      refine (quiet_lowerExpr object none).bind fun object => ?_
      refine (quiet_lowerExpr position none).bind fun position => ?_
      exact Quiet.bind (.check (Ty.candid_elementAt _ _ _)) fun _ => .pure rfl
  | .record name fields, expected, origin => by
      rw [lowerForm]
      refine (quiet_lowerRecordFields name fields).bind fun fields => ?_
      refine .env_bind (fun s t states => by rw [recordType_congr states]) fun env => ?_
      exact Quiet.bind (.check (env.candid_recordType _ _ _)) fun _ => .pure rfl
  | .ifElse condition thenBranch none, expected, origin => by
      rw [lowerForm]
      refine (quiet_lowerExpr condition _).bind fun condition => ?_
      refine Quiet.bind (.check (Check.candid_boolean _ _ _)) fun _ => ?_
      exact (quiet_lowerExpr thenBranch _).bind fun _ => .pure rfl
  | .ifElse condition thenBranch (some elseBranch), expected, origin => by
      rw [lowerForm]
      refine (quiet_lowerExpr condition _).bind fun condition => ?_
      refine Quiet.bind (.check (Check.candid_boolean _ _ _)) fun _ => ?_
      refine (quiet_lowerExpr thenBranch _).bind fun thenBranch => ?_
      refine (quiet_lowerExpr elseBranch _).bind fun elseBranch => ?_
      exact Quiet.bind (.check (Check.candid_compatible _ _ _ _)) fun _ => .pure rfl
  | .matching scrutinee arms, expected, origin => by
      rw [lowerForm]
      refine (quiet_lowerExpr scrutinee none).bind fun scrutinee => ?_
      refine (quiet_lowerArms arms _ expected).bind fun arms => ?_
      refine .read_bind (fun c c' contexts => by rw [contexts.coverage])
        (fun c c' contexts => matching_settings contexts _ _ origin) fun context => ?_
      refine .env_bind (fun s t states => by rw [states.types]) fun env => ?_
      exact Quiet.bind (.check (Typed.candid_matchType _ _ _ _ _)) fun _ => .pure rfl
  | .lambda params result body, expected, origin => by
      rw [lowerForm.eq_def]
      dsimp only
      refine (quiet_lambdaParams origin params _).bind fun params => ?_
      refine (quiet_resolve? origin result).bind fun declared => ?_
      refine Quiet.bind (Acts.inScope ((binds_bindParams params).bind_any fun _ =>
        (quiet_lowerExpr body _).withResult _)) fun body => ?_
      split
      · exact Quiet.bind (.check (Check.candid_compatible _ _ _ _)) fun _ => .pure rfl
      · exact .pure rfl
  | .block stmts none, expected, origin => by
      rw [lowerForm]
      refine .inScope ((binds_lowerStmts stmts).bind_any (g := fun _ _ _ => True) fun stmts => ?_)
      exact .pure trivial
  | .block stmts (some result), expected, origin => by
      rw [lowerForm]
      refine .inScope ((binds_lowerStmts stmts).bind_any (g := fun _ _ _ => True) fun stmts => ?_)
      exact (quiet_lowerExpr result expected).bind_any (g := fun _ _ _ => True)
        fun _ => .pure trivial
  | .array elements, expected, origin => by
      rw [lowerForm.eq_def]
      dsimp only
      refine (quiet_lowerElements elements _).bind fun elements => ?_
      split
      · exact .pure rfl
      · exact Quiet.bind (.check (candid_checkElements _ _ _ _)) fun _ => .pure rfl

theorem quiet_lowerArgs : ∀ args expected, Quiet FunctionTable.Alike (lowerArgs args expected)
  | [], expected => by
      rw [lowerArgs]
      exact .pure rfl
  | arg :: args, expected => by
      rw [lowerArgs]
      refine (quiet_lowerExpr arg _).bind fun _ => ?_
      exact (quiet_lowerArgs args _).bind fun _ => .pure rfl

theorem quiet_lowerMethodArgs : ∀ args receiver method position first,
    Quiet FunctionTable.Alike (lowerMethodArgs args receiver method position first)
  | [], receiver, method, position, first => by
      rw [lowerMethodArgs]
      exact .pure rfl
  | arg :: args, receiver, method, position, first => by
      rw [lowerMethodArgs]
      refine (quiet_lowerExpr arg _).bind fun _ => ?_
      exact (quiet_lowerMethodArgs args _ _ _ _).bind fun _ => .pure rfl

theorem quiet_lowerElements : ∀ elements expected,
    Quiet FunctionTable.Alike (lowerElements elements expected)
  | [], expected => by
      rw [lowerElements]
      exact .pure rfl
  | element :: elements, expected => by
      rw [lowerElements]
      refine (quiet_lowerExpr element _).bind fun _ => ?_
      exact (quiet_lowerMoreElements elements _).bind fun _ => .pure rfl

theorem quiet_lowerMoreElements : ∀ elements expected,
    Quiet FunctionTable.Alike (lowerMoreElements elements expected)
  | [], expected => by
      rw [lowerMoreElements]
      exact .pure rfl
  | element :: elements, expected => by
      rw [lowerMoreElements]
      refine (quiet_lowerExpr element _).bind fun _ => ?_
      exact (quiet_lowerMoreElements elements _).bind fun _ => .pure rfl

theorem quiet_lowerRecordFields : ∀ typeName fields,
    Quiet FunctionTable.Alike (lowerRecordFields typeName fields)
  | typeName, [] => by
      rw [lowerRecordFields]
      exact .pure rfl
  | typeName, (name, value) :: fields => by
      rw [lowerRecordFields]
      refine .env_bind (fun s t states => by rw [states.types]) fun env => ?_
      refine (quiet_lowerExpr value _).bind fun _ => ?_
      exact (quiet_lowerRecordFields typeName fields).bind fun _ => .pure rfl

theorem quiet_lowerArms : ∀ arms scrutinee expected,
    Quiet FunctionTable.Alike (lowerArms arms scrutinee expected)
  | [], scrutinee, expected => by
      rw [lowerArms]
      exact .pure rfl
  | ⟨pattern, body, origin⟩ :: arms, scrutinee, expected => by
      rw [lowerArms]
      refine (quiet_lowerArm (quiet_lowerExpr body expected)).bind fun arm => ?_
      exact (quiet_lowerArms arms scrutinee expected).bind fun _ => .pure rfl

theorem declares_lowerStmt : ∀ stmt,
    Acts FunctionTable.Alike (Declares (Typed.Stmt.Lets stmt.form)) (lowerStmt stmt)
  | ⟨form, origin⟩ => by
      rw [lowerStmt]
      exact .dispatch (stage_stmt _) (declares_lowerStmtForm form origin) _

theorem declares_lowerStmtForm : ∀ form origin,
    Acts FunctionTable.Alike (Declares (Typed.Stmt.Lets form)) (lowerStmtForm form origin)
  | .bind name mutable written value, origin => by
      rw [lowerStmtForm]
      refine (quiet_resolve? origin written).bind fun declared => ?_
      refine (quiet_lowerExpr value declared).bind fun value => ?_
      split
      · refine Quiet.bind (.check (Check.candid_compatible _ _ _ _)) fun _ => ?_
        exact .bind_name_pure ⟨_, _, rfl, rfl⟩
      · exact .bind_name_pure ⟨_, _, rfl, rfl⟩
  | .assign target value, origin => by
      rw [lowerStmtForm]
      refine .env_bind (fun s t states => by rw [states.scopes]) fun env => ?_
      split
      · exact .fail rfl _
      · refine (quiet_lowerExpr value _).bind fun value => ?_
        exact Quiet.bind (.check (Check.candid_compatible _ _ _ _)) fun _ => .pure ⟨rfl, rfl⟩
  | .expr value, origin => by
      rw [lowerStmtForm]
      exact (quiet_lowerExpr value none).bind fun _ => .pure ⟨rfl, rfl⟩
  | .return none, origin => by
      rw [lowerStmtForm]
      exact .pure ⟨rfl, rfl⟩
  | .return (some value), origin => by
      rw [lowerStmtForm]
      refine .get_bind (fun s t states => by rw [states.results]) fun state => ?_
      refine (quiet_lowerExpr value _).bind fun value => ?_
      split
      · exact Quiet.bind (.check (Check.candid_compatible _ _ _ _)) fun _ => .pure ⟨rfl, rfl⟩
      · exact .pure ⟨rfl, rfl⟩
  | .ifElse condition thenBody elseBody, origin => by
      rw [lowerStmtForm]
      refine (quiet_lowerExpr condition _).bind fun condition => ?_
      refine Quiet.bind (.check (Check.candid_boolean _ _ _)) fun _ => ?_
      refine (Acts.inScope (binds_lowerStmts thenBody)).bind fun _ => ?_
      exact (Acts.inScope (binds_lowerStmts elseBody)).bind fun _ => .pure ⟨rfl, rfl⟩
  | .whileLoop condition body, origin => by
      rw [lowerStmtForm]
      refine (quiet_lowerExpr condition _).bind fun condition => ?_
      refine Quiet.bind (.check (Check.candid_boolean _ _ _)) fun _ => ?_
      exact (Acts.inScope (binds_lowerStmts body)).bind fun _ => .pure ⟨rfl, rfl⟩
  | .forEach name iterable body, origin => by
      rw [lowerStmtForm]
      refine (quiet_lowerExpr iterable none).bind fun iterable => ?_
      split
      · exact .fail rfl _
      · refine Quiet.bind (Acts.inScope ((Acts.bind_name name _).bind_any fun _ =>
          binds_lowerStmts body)) fun _ => ?_
        exact .pure ⟨rfl, rfl⟩
  | .leave, origin => by
      rw [lowerStmtForm]
      exact .pure ⟨rfl, rfl⟩
  | .next, origin => by
      rw [lowerStmtForm]
      exact .pure ⟨rfl, rfl⟩

theorem binds_lowerStmts : ∀ stmts,
    Acts FunctionTable.Alike (Binds stmtBinders) (lowerStmts stmts)
  | [] => by
      rw [lowerStmts]
      exact .pure rfl
  | stmt :: stmts => by
      rw [lowerStmts]
      have first := (declares_lowerStmt stmt).binds fun _ _ => Typed.Stmt.Lets.eq_binders
      exact first.both (binds_lowerStmts stmts) fun _ _ => rfl

end

/-- Lowering leaves what is known as it was, with the standard rules and from every state: an
expression that is lowered changes nothing and one that is not changes nothing but the
announcements, and so it is with statements, except that a binding that is lowered gives its
name, in the innermost scope, the type that is recorded in it: the name is found with that type
from then on, and every other name as before. -/
theorem lowering_is_neutral (config : Config) (source : Option (String → Option Summary))
    (s : LowerState) :
    (∀ e expected,
      match (lowerExpr e expected).run { config, source } s with
      | (.ok _, after) => after = s
      | (.error _, after) => after = { s with announced := after.announced }) ∧
    ∀ stmt,
      match (lowerStmt stmt).run { config, source } s with
      | (.ok lowered, after) =>
        match stmt.form with
        | .bind name mutable _ _ => ∃ ty value, lowered.form = .bind name mutable ty value ∧
            after = { s with env := { s.env with scopes := s.env.scopes.bind name ty } } ∧
            after.env.scopes.outer = s.env.scopes.outer ∧
            ∀ other, after.env.scopes.lookup? other =
              if other = name then some ty else s.env.scopes.lookup? other
        | _ => after = s
      | (.error _, after) => after = { s with announced := after.announced } := by
  constructor
  · intro e expected
    rcases ran : (lowerExpr e expected).run { config, source } s with ⟨_ | lowered, after⟩
    · exact (quiet_lowerExpr e expected).run_error rfl ran
    · obtain ⟨names, rfl, rfl⟩ := (quiet_lowerExpr e expected).run_ok rfl ran
      exact s.grown_nil
  · intro stmt
    rcases ran : (lowerStmt stmt).run { config, source } s with ⟨_ | lowered, after⟩
    · exact (declares_lowerStmt stmt).run_error rfl ran
    · obtain ⟨names, bound, rfl⟩ := (declares_lowerStmt stmt).run_ok rfl ran
      obtain ⟨form, origin⟩ := stmt
      cases form with
      | bind name mutable written value =>
          obtain ⟨ty, value, lowered, rfl⟩ := bound
          refine ⟨ty, value, lowered, ?_, rfl, fun other => ?_⟩
          · simp [LowerState.grown]
          · exact s.env.scopes.lookup?_bind name other ty
      | _ =>
          obtain ⟨-, rfl⟩ := bound
          exact s.grown_nil

end Lower

end ModuleTyping
