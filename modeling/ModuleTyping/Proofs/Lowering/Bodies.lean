import ModuleTyping.Proofs.Lowering.Elaboration

/-!
# Lowered bodies elaborate their sources

The induction over the syntax behind `Elaborates`: whatever lowering an expression or a
statement yields, from a state that stands where the names of `Γ` are local, elaborates it
there. Each case takes a success apart into the successes of the parts; all parts but the
statements of a block and the pattern of an arm leave the state as it was, and those two bind
what they say they bind.
-/

namespace ModuleTyping

open Elaborates (LambdaParam)
open Typed (paramBinders)

namespace Lower

variable {S : Surroundings} {Γ : Locals} {c : Context} {s : LowerState}

/-! ### Patterns -/

theorem length_of_constructorFor (standard : c.engine = .standard) {name : String}
    {fieldCount : Nat} {scrutinee : Ty} {origin : Origin} {sig : Signature}
    (ran : Yields c s (constructorFor name fieldCount scrutinee origin) sig) :
    fieldCount = sig.params.length := by
  unfold constructorFor at ran
  replace ran := ran.env_bind
  split at ran
  · cases ran
  · obtain ⟨_, -, ran⟩ := ran.bind_quiet (.check (Check.candid_compatible _ _ _ _)) standard
    split at ran
    · next same =>
      cases ran
      exact same
    · cases ran

mutual

theorem elaborates_lowerPattern (standard : c.engine = .standard) (origin : Origin) :
    ∀ pattern scrutinee {s pattern'}, Yields c s (lowerPattern origin pattern scrutinee) pattern' →
      s.env.constructors = S.constructors → Elaborates.Pattern S pattern pattern'
  | .wildcard, scrutinee, s, pattern', ran, same => by
      rw [lowerPattern] at ran
      cases ran
      exact .wildcard
  | .bind name, scrutinee, s, pattern', ran, same => by
      rw [lowerPattern] at ran
      replace ran := ran.env_bind
      rw [same] at ran
      split at ran
      · next nullary =>
        obtain ⟨_, -, ran⟩ := ran.bind_quiet (quiet_constructorFor _ _ _ _) standard
        cases ran
        exact .nullary nullary
      · next other =>
        cases ran
        exact .bind (Bool.eq_false_iff.mpr other)
  | .literal value, scrutinee, s, pattern', ran, same => by
      rw [lowerPattern] at ran
      obtain ⟨_, -, ran⟩ := ran.bind_quiet (.check (Check.candid_compatible _ _ _ _)) standard
      cases ran
      exact .literal
  | .constructor name fields, scrutinee, s, pattern', ran, same => by
      rw [lowerPattern] at ran
      obtain ⟨sig, found, ran⟩ := ran.bind_quiet (quiet_constructorFor _ _ _ _) standard
      obtain ⟨fields', _, lowered, -, ran⟩ := ran.bind (binds_lowerFields _ _ _) standard
      cases ran
      exact .constructor (elaborates_lowerFields standard origin fields _
        (length_of_constructorFor standard found) lowered same)
  | .or alternatives, scrutinee, s, pattern', ran, same => by
      rw [lowerPattern] at ran
      obtain ⟨alternatives', _, lowered, -, ran⟩ :=
        ran.bind (binds_lowerAlternatives _ _ _) standard
      cases ran
      exact .or (elaborates_lowerAlternatives standard origin alternatives _ lowered same)

theorem elaborates_lowerFields (standard : c.engine = .standard) (origin : Origin) :
    ∀ patterns tys {s patterns'}, patterns.length = tys.length →
      Yields c s (lowerFields origin patterns tys) patterns' →
      s.env.constructors = S.constructors →
      List.Forall₂ (Elaborates.Pattern S) patterns patterns'
  | [], [], s, patterns', _, ran, same => by
      rw [lowerFields] at ran
      · cases ran
        exact .nil
      · nofun
  | pattern :: patterns, ty :: tys, s, patterns', lengths, ran, same => by
      rw [lowerFields] at ran
      obtain ⟨pattern', _, first, -, ran⟩ := ran.bind (binds_lowerPattern _ _ _) standard
      obtain ⟨patterns', _, rest, -, ran⟩ := ran.bind (binds_lowerFields _ _ _) standard
      cases ran
      exact .cons (elaborates_lowerPattern standard origin pattern _ first same)
        (elaborates_lowerFields standard origin patterns _ (Nat.succ.inj lengths) rest same)

theorem elaborates_lowerAlternatives (standard : c.engine = .standard) (origin : Origin) :
    ∀ patterns scrutinee {s patterns'},
      Yields c s (lowerAlternatives origin patterns scrutinee) patterns' →
      s.env.constructors = S.constructors →
      List.Forall₂ (Elaborates.Pattern S) patterns patterns'
  | [], scrutinee, s, patterns', ran, same => by
      rw [lowerAlternatives] at ran
      cases ran
      exact .nil
  | pattern :: patterns, scrutinee, s, patterns', ran, same => by
      rw [lowerAlternatives] at ran
      obtain ⟨pattern', _, first, -, ran⟩ := ran.bind (binds_lowerPattern _ _ _) standard
      obtain ⟨patterns', _, rest, -, ran⟩ := ran.bind (binds_lowerAlternatives _ _ _) standard
      cases ran
      exact .cons (elaborates_lowerPattern standard origin pattern _ first same)
        (elaborates_lowerAlternatives standard origin patterns _ rest same)

end

/-! ### Names and callees -/

/-- What a call by a name that is not local is resolved to. -/
theorem target_of_callByName (stands : Stands S Γ s) {name : String}
    (unbound : Γ.lookup name = none) {args : List Ty} {expected : Option Ty} {origin : Origin}
    {announced : List Mismatch} {call : ResolvedCall}
    (passed : (s.env.callByName name args expected origin announced).1 = .ok call) :
    isBuiltin name = true ∧ call.target = .builtin name ∨
      isBuiltin name = false ∧ ∃ entry, S.functions.entry? name = some entry ∧
        call.target = .function entry.name := by
  unfold Environment.callByName at passed
  rw [stands.locals, unbound, stands.entry?] at passed
  unfold isBuiltin
  cases result : builtinResult? name with
  | some ty =>
      rw [result] at passed
      cases passed
      exact .inl ⟨rfl, rfl⟩
  | none =>
      rw [result] at passed
      cases found : S.functions.entry? name with
      | none =>
          rw [found] at passed
          cases passed
      | some entry =>
          rw [found] at passed
          dsimp only at passed
          rw [Stateful.bind_apply] at passed
          split at passed
          · cases passed
            exact .inr ⟨rfl, entry, rfl, rfl⟩
          · cases passed

theorem target_of_callMember {entry : Entry Signature} {container member : String}
    {args : List Ty} {expected : Option Ty} {origin : Origin} {announced : List Mismatch}
    {call : ResolvedCall}
    (passed : (Environment.callMember entry container member args expected origin announced).1 =
      .ok call) : call.target = .function entry.name := by
  unfold Environment.callMember at passed
  rw [Stateful.bind_apply] at passed
  split at passed
  · cases passed
    rfl
  · cases passed

theorem unbound_of_globalName? (stands : Stands S Γ s) {form : Source.ExprForm} {origin : Origin}
    {name : String} (global : Source.Expr.globalName? ⟨form, origin⟩ s.env = some name) :
    form = .var name ∧ Γ.lookup name = none := by
  unfold Source.Expr.globalName? at global
  split at global
  · split at global
    · cases global
    · next unbound =>
      cases global
      rw [Scopes.contains, stands.locals, Option.not_isSome_iff_eq_none] at unbound
      exact ⟨‹_›, unbound⟩
  · cases global

theorem isValue_of_globalName? (stands : Stands S Γ s) {callee : Source.Expr}
    (other : ∀ object method place, callee ≠ ⟨.member object method, place⟩)
    (local_ : callee.globalName? s.env = none) : callee.IsValue Γ := by
  obtain ⟨form, origin⟩ := callee
  cases form with
  | member object method => exact other object method origin rfl
  | var name =>
      unfold Source.Expr.globalName? at local_
      dsimp only at local_
      split at local_
      · next bound =>
        rw [Scopes.contains, stands.locals] at bound
        exact bound
      · cases local_
  | _ => trivial

theorem elaborates_callNamed (standard : c.engine = .standard) (stands : Stands S Γ s)
    {name : String} (unbound : Γ.lookup name = none) {args : List Typed.Expr}
    {expected : Option Ty} {origin : Origin} {e : Typed.Expr}
    (ran : Yields c s (callNamed name args expected origin) e) :
    ∃ callee ty, Elaborates.Callee S name callee ∧ e = ⟨.call callee args, ty, origin⟩ := by
  unfold callNamed at ran
  replace ran := ran.env_bind
  obtain ⟨call, checked, ran⟩ :=
    ran.bind_quiet (.check (Environment.candid_callByName _ _ _ _ _)) standard
  obtain ⟨callee, resolved, ran⟩ := ran.bind_quiet (quiet_calleeOf _ _ _) standard
  cases ran
  refine ⟨callee, call.result, ?_, rfl⟩
  obtain ⟨isBuiltin, target⟩ | ⟨notBuiltin, entry, found, target⟩ :=
    target_of_callByName stands unbound checked.of_check
  · rw [target] at resolved
    cases resolved
    exact .builtin isBuiltin
  · rw [target] at resolved
    cases resolved
    exact .function notBuiltin found

/-- A name that stands for nothing else has a type only if it is a built-in one. -/
theorem builtin_of_nameType (stands : Stands S Γ s) {name : String} (unbound : Γ.lookup name = none)
    (notFunction : S.functions.entry? name = none) (notWord : boolOfWord? name = none)
    {origin : Origin} {announced : List Mismatch} {ty : Ty}
    (passed : (s.env.nameType name origin announced).1 = .ok ty) :
    builtinResult? name = some ty := by
  unfold Environment.nameType FunctionTable.signature? at passed
  rw [stands.locals, unbound, stands.entry?, notFunction] at passed
  cases result : builtinResult? name with
  | some found =>
      rw [result] at passed
      cases passed
      rfl
  | none =>
      have notTruth : ¬(name = "true" ∨ name = "false") := by
        rintro (rfl | rfl) <;> cases notWord
      simp only [result, Option.map_none, if_neg notTruth] at passed
      cases passed

theorem elaborates_lowerName (standard : c.engine = .standard) (stands : Stands S Γ s)
    {name : String} {expected : Option Ty} {origin : Origin} {e : Typed.Expr}
    (ran : Yields c s (lowerName name expected origin) e) :
    Elaborates.Name S Γ name e.form e.ty := by
  unfold lowerName at ran
  replace ran := ran.env_bind
  rw [stands.locals, stands.constructors, stands.entry?] at ran
  split at ran
  · next bound =>
    cases ran
    exact .bound bound
  · next unbound =>
    split at ran
    · next nullary =>
      obtain ⟨callee, ty, resolved, rfl⟩ := elaborates_callNamed standard stands unbound ran
      exact .constructor unbound nullary resolved
    · next other =>
      replace other := Bool.eq_false_iff.mpr other
      split at ran
      · next found =>
        cases ran
        exact .function unbound other found
      · next notFunction =>
        split at ran
        · next word =>
          cases ran
          exact .truth unbound other notFunction word
        · next notWord =>
          obtain ⟨ty, checked, ran⟩ :=
            ran.bind_quiet (.check (Environment.candid_nameType _ _ _)) standard
          cases ran
          exact .builtin unbound other notFunction notWord
            (builtin_of_nameType stands unbound notFunction notWord checked.of_check)

/-! ### Expressions and statements -/

theorem elaborates_lambdaParams (standard : c.engine = .standard) (stands : Stands S Γ s)
    (origin : Origin) {params : List Source.LambdaParam} {expected : List Ty}
    {params' : List Typed.Param} (ran : Yields c s (lambdaParams origin params expected) params') :
    List.Forall₂ (LambdaParam S) params params' := by
  induction params generalizing expected params' with
  | nil =>
      cases ran
      exact .nil
  | cons param params ih =>
      rw [lambdaParams] at ran
      split at ran
      · next written isWritten =>
        obtain ⟨ty, resolved, ran⟩ := ran.bind_quiet (quiet_resolve origin written) standard
        obtain ⟨rest, lowered, ran⟩ := ran.bind_quiet (quiet_lambdaParams _ _ _) standard
        cases ran
        refine .cons ⟨rfl, ?_⟩ (ih lowered)
        intro other isOther
        cases isWritten.symm.trans isOther
        exact resolves_resolve standard stands origin written resolved
      · next notWritten =>
        obtain ⟨_, -, ran⟩ := ran.bind_quiet (.pure rfl) standard
        obtain ⟨rest, lowered, ran⟩ := ran.bind_quiet (quiet_lambdaParams _ _ _) standard
        cases ran
        refine .cons ⟨rfl, ?_⟩ (ih lowered)
        intro written isWritten
        cases notWritten.symm.trans isWritten

/-- A call that is not one of a member. -/
theorem elaborates_lowerCall (standard : c.engine = .standard) {callee : Source.Expr}
    {args : List Source.Expr} {expected : Option Ty} {origin : Origin} {e : Typed.Expr}
    (other : ∀ object method place, callee ≠ ⟨.member object method, place⟩)
    (callees : ∀ {callee'}, Yields c s (lowerExpr callee none) callee' →
      Elaborates.Expr S Γ callee callee')
    (argss : ∀ {expected args'}, Yields c s (lowerArgs args expected) args' →
      Elaborates.Exprs S Γ args args')
    (stands : Stands S Γ s) (ran : Yields c s (lowerForm (.call callee args) expected origin) e) :
    Elaborates.Form S Γ (.call callee args) e.form e.ty := by
  rw [lowerForm] at ran
  · replace ran := ran.env_bind
    obtain ⟨form, place⟩ := callee
    split at ran
    · next name global =>
      obtain ⟨rfl, unbound⟩ := unbound_of_globalName? stands global
      replace ran := ran.env_bind
      obtain ⟨args', lowered, ran⟩ := ran.bind_quiet (quiet_lowerArgs args _) standard
      obtain ⟨callee, ty, resolved, rfl⟩ := elaborates_callNamed standard stands unbound ran
      exact .callName unbound resolved (argss lowered)
    · next local_ =>
      obtain ⟨callee', first, ran⟩ := ran.bind_quiet (quiet_lowerExpr _ _) standard
      obtain ⟨args', lowered, ran⟩ := ran.bind_quiet (quiet_lowerArgs args _) standard
      obtain ⟨ty, -, ran⟩ := ran.bind_quiet (.check (Ty.candid_callResult _ _ _)) standard
      cases ran
      exact .callValue (isValue_of_globalName? stands other local_) (callees first) (argss lowered)
  · exact other

/-- A call of a member: of a function of a module, of a field that holds a function, or else
of a built-in method. -/
theorem elaborates_lowerMemberCall (standard : c.engine = .standard) {object : Source.Expr}
    {method : String} {place : Origin} {args : List Source.Expr} {expected : Option Ty}
    {origin : Origin} {e : Typed.Expr}
    (receivers : ∀ {object'}, Yields c s (lowerExpr object none) object' →
      Elaborates.Expr S Γ object object')
    (argss : ∀ {expected args'}, Yields c s (lowerArgs args expected) args' →
      Elaborates.Exprs S Γ args args')
    (methodArgs : ∀ {receiver args'},
      Yields c s (lowerMethodArgs args receiver method 0 none) args' →
      Elaborates.Exprs S Γ args args')
    (stands : Stands S Γ s)
    (ran : Yields c s (lowerForm (.call ⟨.member object method, place⟩ args) expected origin) e) :
    Elaborates.Form S Γ (.call ⟨.member object method, place⟩ args) e.form e.ty := by
  rw [lowerForm] at ran
  obtain ⟨found, resolved, ran⟩ := ran.bind_quiet (quiet_moduleMember? _ _) standard
  replace resolved := stands.moduleMember? resolved
  split at ran
  · obtain ⟨args', lowered, ran⟩ := ran.bind_quiet (quiet_lowerArgs args _) standard
    obtain ⟨call, checked, ran⟩ :=
      ran.bind_quiet (.check (Environment.candid_callMember _ _ _ _ _ _)) standard
    obtain ⟨callee, target, ran⟩ := ran.bind_quiet (quiet_calleeOf _ _ _) standard
    cases ran
    rw [target_of_callMember checked.of_check] at target
    cases target
    exact .callModuleFunction resolved.symm (argss lowered)
  · obtain ⟨object', receiver, ran⟩ := ran.bind_quiet (quiet_lowerExpr object _) standard
    replace ran := ran.env_bind
    split at ran
    · obtain ⟨args', lowered, ran⟩ := ran.bind_quiet (quiet_lowerArgs args _) standard
      obtain ⟨ty, -, ran⟩ := ran.bind_quiet (.check (Ty.candid_callResult _ _ _)) standard
      cases ran
      exact .callField resolved.symm (receivers receiver) (argss lowered)
    · obtain ⟨args', lowered, ran⟩ :=
        ran.bind_quiet (quiet_lowerMethodArgs args _ _ _ _) standard
      obtain ⟨ty, -, ran⟩ := ran.bind_quiet (.check (Ty.candid_methodResult _ _ _ _)) standard
      cases ran
      exact .callMethod resolved.symm (receivers receiver) (methodArgs lowered)

mutual

theorem elaborates_lowerExpr (standard : c.engine = .standard) :
    ∀ e expected {Γ s e'}, Stands S Γ s → Yields c s (lowerExpr e expected) e' →
      Elaborates.Expr S Γ e e'
  | ⟨form, origin⟩, expected, Γ, s, ⟨form', ty, origin'⟩, stands, ran => by
      rw [lowerExpr] at ran
      exact .mk (elaborates_lowerForm standard form expected origin stands
        (ran.of_dispatch (stage_expr _ _) standard))

theorem elaborates_lowerForm (standard : c.engine = .standard) :
    ∀ form expected origin {Γ s e'}, Stands S Γ s →
      Yields c s (lowerForm form expected origin) e' →
      Elaborates.Form S Γ form e'.form e'.ty
  | .literal value, expected, origin, Γ, s, e', stands, ran => by
      rw [lowerForm] at ran
      cases ran
      exact .literal
  | .var name, expected, origin, Γ, s, e', stands, ran => by
      rw [lowerForm] at ran
      exact .name (elaborates_lowerName standard stands ran)
  | .binary op lhs rhs, expected, origin, Γ, s, e', stands, ran => by
      rw [lowerForm] at ran
      obtain ⟨lhs', left, ran⟩ := ran.bind_quiet (quiet_lowerExpr lhs _) standard
      obtain ⟨rhs', right, ran⟩ := ran.bind_quiet (quiet_lowerExpr rhs _) standard
      obtain ⟨ty, -, ran⟩ := ran.bind_quiet (.check (op.candid_result _ _ _)) standard
      cases ran
      exact .binary (elaborates_lowerExpr standard lhs _ stands left)
        (elaborates_lowerExpr standard rhs _ stands right)
  | .unary op operand, expected, origin, Γ, s, e', stands, ran => by
      rw [lowerForm] at ran
      obtain ⟨operand', lowered, ran⟩ := ran.bind_quiet (quiet_lowerExpr operand _) standard
      obtain ⟨ty, -, ran⟩ := ran.bind_quiet (.check (op.candid_result _ _)) standard
      cases ran
      exact .unary (elaborates_lowerExpr standard operand _ stands lowered)
  | .call ⟨form, place⟩ args, expected, origin, Γ, s, e', stands, ran => by
      have callees {callee' : Typed.Expr}
          (lowered : Yields c s (lowerExpr ⟨form, place⟩ none) callee') :
          Elaborates.Expr S Γ ⟨form, place⟩ callee' :=
        elaborates_lowerExpr standard ⟨form, place⟩ none stands lowered
      have argss {expected : List Ty} {args' : List Typed.Expr}
          (lowered : Yields c s (lowerArgs args expected) args') :
          Elaborates.Exprs S Γ args args' :=
        elaborates_lowerArgs standard args expected stands lowered
      cases form with
      | member object method =>
          exact elaborates_lowerMemberCall standard
            (fun lowered => elaborates_lowerExpr standard object _ stands lowered) argss
            (fun lowered => elaborates_lowerMethodArgs standard args _ _ _ _ stands lowered)
            stands ran
      | _ => exact elaborates_lowerCall standard (by simp) callees argss stands ran
  | .member object name, expected, origin, Γ, s, e', stands, ran => by
      rw [lowerForm] at ran
      obtain ⟨found, resolved, ran⟩ := ran.bind_quiet (quiet_moduleMember? _ _) standard
      replace resolved := stands.moduleMember? resolved
      split at ran
      · cases ran
        exact .moduleFunction resolved.symm
      · obtain ⟨object', lowered, ran⟩ := ran.bind_quiet (quiet_lowerExpr object _) standard
        replace ran := ran.env_bind
        obtain ⟨ty, -, ran⟩ :=
          ran.bind_quiet (.check (Environment.candid_memberType _ _ _ _)) standard
        cases ran
        exact .member resolved.symm (elaborates_lowerExpr standard object _ stands lowered)
  | .index object position, expected, origin, Γ, s, e', stands, ran => by
      rw [lowerForm] at ran
      obtain ⟨object', first, ran⟩ := ran.bind_quiet (quiet_lowerExpr object _) standard
      obtain ⟨position', second, ran⟩ := ran.bind_quiet (quiet_lowerExpr position _) standard
      obtain ⟨ty, -, ran⟩ := ran.bind_quiet (.check (Ty.candid_elementAt _ _ _)) standard
      cases ran
      exact .index (elaborates_lowerExpr standard object _ stands first)
        (elaborates_lowerExpr standard position _ stands second)
  | .record name fields, expected, origin, Γ, s, e', stands, ran => by
      rw [lowerForm] at ran
      obtain ⟨fields', lowered, ran⟩ :=
        ran.bind_quiet (quiet_lowerRecordFields name fields) standard
      replace ran := ran.env_bind
      obtain ⟨ty, -, ran⟩ :=
        ran.bind_quiet (.check (Environment.candid_recordType _ _ _ _)) standard
      cases ran
      exact .record (elaborates_lowerRecordFields standard name fields stands lowered)
  | .ifElse condition thenBranch none, expected, origin, Γ, s, e', stands, ran => by
      rw [lowerForm] at ran
      obtain ⟨condition', first, ran⟩ := ran.bind_quiet (quiet_lowerExpr condition _) standard
      obtain ⟨_, -, ran⟩ := ran.bind_quiet (.check (Check.candid_boolean _ _ _)) standard
      obtain ⟨thenBranch', second, ran⟩ := ran.bind_quiet (quiet_lowerExpr thenBranch _) standard
      cases ran
      exact .ifThen (elaborates_lowerExpr standard condition _ stands first)
        (elaborates_lowerExpr standard thenBranch _ stands second)
  | .ifElse condition thenBranch (some elseBranch), expected, origin, Γ, s, e', stands, ran => by
      rw [lowerForm] at ran
      obtain ⟨condition', first, ran⟩ := ran.bind_quiet (quiet_lowerExpr condition _) standard
      obtain ⟨_, -, ran⟩ := ran.bind_quiet (.check (Check.candid_boolean _ _ _)) standard
      obtain ⟨thenBranch', second, ran⟩ := ran.bind_quiet (quiet_lowerExpr thenBranch _) standard
      obtain ⟨elseBranch', third, ran⟩ := ran.bind_quiet (quiet_lowerExpr elseBranch _) standard
      obtain ⟨_, -, ran⟩ := ran.bind_quiet (.check (Check.candid_compatible _ _ _ _)) standard
      cases ran
      exact .ifElse (elaborates_lowerExpr standard condition _ stands first)
        (elaborates_lowerExpr standard thenBranch _ stands second)
        (elaborates_lowerExpr standard elseBranch _ stands third)
  | .matching scrutinee arms, expected, origin, Γ, s, e', stands, ran => by
      rw [lowerForm] at ran
      obtain ⟨scrutinee', first, ran⟩ := ran.bind_quiet (quiet_lowerExpr scrutinee _) standard
      obtain ⟨arms', lowered, ran⟩ := ran.bind_quiet (quiet_lowerArms arms _ _) standard
      replace ran := ran.read_bind.env_bind
      obtain ⟨ty, -, ran⟩ :=
        ran.bind_quiet (.check (Typed.candid_matchType _ _ _ _ _)) standard
      cases ran
      exact .matching (elaborates_lowerExpr standard scrutinee _ stands first)
        (elaborates_lowerArms standard arms _ _ stands lowered)
  | .lambda params result body, expected, origin, Γ, s, e', stands, ran => by
      rw [lowerForm.eq_def] at ran
      dsimp only at ran
      obtain ⟨params', lowered, ran⟩ := ran.bind_quiet (quiet_lambdaParams _ params _) standard
      obtain ⟨declared, resolved, ran⟩ := ran.bind_quiet (quiet_resolve? _ result) standard
      obtain ⟨body', inside, ran⟩ := ran.bind_quiet (.inScope ((binds_bindParams params').bind_any
        fun _ => (quiet_lowerExpr body _).withResult _)) standard
      obtain ⟨_, _, -, rfl, inside⟩ := inside.of_inScope.bind (binds_bindParams params') standard
      have elaborated := elaborates_lowerExpr standard body _
        ((stands.entered.bound (paramBinders params')).returning _) inside.of_withResult
      have params := elaborates_lambdaParams standard stands origin lowered
      have results := resolves_getD (resolves_resolve? standard stands resolved) body'.ty
      cases declared with
      | some declared =>
          obtain ⟨_, -, ran⟩ := ran.bind_quiet (.check (Check.candid_compatible _ _ _ _)) standard
          cases ran
          exact .lambda params results elaborated
      | none =>
          cases ran
          exact .lambda params results elaborated
  | .block stmts none, expected, origin, Γ, s, e', stands, ran => by
      rw [lowerForm] at ran
      obtain ⟨stmts', _, lowered, rfl, ran⟩ :=
        ran.of_inScope.bind (binds_lowerStmts stmts) standard
      cases ran
      exact .block (elaborates_lowerStmts standard stmts stands.entered lowered)
  | .block stmts (some result), expected, origin, Γ, s, e', stands, ran => by
      rw [lowerForm] at ran
      obtain ⟨stmts', _, lowered, rfl, ran⟩ :=
        ran.of_inScope.bind (binds_lowerStmts stmts) standard
      obtain ⟨result', last, ran⟩ := ran.bind_quiet (quiet_lowerExpr result _) standard
      cases ran
      exact .blockValue (elaborates_lowerStmts standard stmts stands.entered lowered)
        (elaborates_lowerExpr standard result _ (stands.entered.bound _) last)
  | .array elements, expected, origin, Γ, s, e', stands, ran => by
      rw [lowerForm.eq_def] at ran
      dsimp only at ran
      obtain ⟨elements', lowered, ran⟩ := ran.bind_quiet (quiet_lowerElements elements _) standard
      replace lowered := elaborates_lowerElements standard elements _ stands lowered
      split at ran
      · cases ran
        exact .array lowered
      · obtain ⟨_, -, ran⟩ := ran.bind_quiet (.check (candid_checkElements _ _ _ _)) standard
        cases ran
        exact .array lowered

theorem elaborates_lowerArgs (standard : c.engine = .standard) :
    ∀ args expected {Γ s args'}, Stands S Γ s → Yields c s (lowerArgs args expected) args' →
      Elaborates.Exprs S Γ args args'
  | [], expected, Γ, s, args', stands, ran => by
      rw [lowerArgs] at ran
      cases ran
      exact .nil
  | arg :: args, expected, Γ, s, args', stands, ran => by
      rw [lowerArgs] at ran
      obtain ⟨arg', first, ran⟩ := ran.bind_quiet (quiet_lowerExpr arg _) standard
      obtain ⟨args', rest, ran⟩ := ran.bind_quiet (quiet_lowerArgs args _) standard
      cases ran
      exact .cons (elaborates_lowerExpr standard arg _ stands first)
        (elaborates_lowerArgs standard args _ stands rest)

theorem elaborates_lowerMethodArgs (standard : c.engine = .standard) :
    ∀ args receiver method position known {Γ s args'}, Stands S Γ s →
      Yields c s (lowerMethodArgs args receiver method position known) args' →
      Elaborates.Exprs S Γ args args'
  | [], receiver, method, position, known, Γ, s, args', stands, ran => by
      rw [lowerMethodArgs] at ran
      cases ran
      exact .nil
  | arg :: args, receiver, method, position, known, Γ, s, args', stands, ran => by
      rw [lowerMethodArgs] at ran
      obtain ⟨arg', first, ran⟩ := ran.bind_quiet (quiet_lowerExpr arg _) standard
      obtain ⟨args', rest, ran⟩ := ran.bind_quiet (quiet_lowerMethodArgs args _ _ _ _) standard
      cases ran
      exact .cons (elaborates_lowerExpr standard arg _ stands first)
        (elaborates_lowerMethodArgs standard args _ _ _ _ stands rest)

theorem elaborates_lowerElements (standard : c.engine = .standard) :
    ∀ elements expected {Γ s elements'}, Stands S Γ s →
      Yields c s (lowerElements elements expected) elements' →
      Elaborates.Exprs S Γ elements elements'
  | [], expected, Γ, s, elements', stands, ran => by
      rw [lowerElements] at ran
      cases ran
      exact .nil
  | element :: elements, expected, Γ, s, elements', stands, ran => by
      rw [lowerElements] at ran
      obtain ⟨element', first, ran⟩ := ran.bind_quiet (quiet_lowerExpr element _) standard
      obtain ⟨elements', rest, ran⟩ := ran.bind_quiet (quiet_lowerMoreElements elements _) standard
      cases ran
      exact .cons (elaborates_lowerExpr standard element _ stands first)
        (elaborates_lowerMoreElements standard elements _ stands rest)

theorem elaborates_lowerMoreElements (standard : c.engine = .standard) :
    ∀ elements expected {Γ s elements'}, Stands S Γ s →
      Yields c s (lowerMoreElements elements expected) elements' →
      Elaborates.Exprs S Γ elements elements'
  | [], expected, Γ, s, elements', stands, ran => by
      rw [lowerMoreElements] at ran
      cases ran
      exact .nil
  | element :: elements, expected, Γ, s, elements', stands, ran => by
      rw [lowerMoreElements] at ran
      obtain ⟨element', first, ran⟩ := ran.bind_quiet (quiet_lowerExpr element _) standard
      obtain ⟨elements', rest, ran⟩ := ran.bind_quiet (quiet_lowerMoreElements elements _) standard
      cases ran
      exact .cons (elaborates_lowerExpr standard element _ stands first)
        (elaborates_lowerMoreElements standard elements _ stands rest)

theorem elaborates_lowerRecordFields (standard : c.engine = .standard) :
    ∀ typeName fields {Γ s fields'}, Stands S Γ s →
      Yields c s (lowerRecordFields typeName fields) fields' →
      Elaborates.Fields S Γ fields fields'
  | typeName, [], Γ, s, fields', stands, ran => by
      rw [lowerRecordFields] at ran
      cases ran
      exact .nil
  | typeName, (name, value) :: fields, Γ, s, fields', stands, ran => by
      rw [lowerRecordFields] at ran
      replace ran := ran.env_bind
      obtain ⟨value', first, ran⟩ := ran.bind_quiet (quiet_lowerExpr value _) standard
      obtain ⟨fields', rest, ran⟩ := ran.bind_quiet (quiet_lowerRecordFields _ fields) standard
      cases ran
      exact .cons (elaborates_lowerExpr standard value _ stands first)
        (elaborates_lowerRecordFields standard _ fields stands rest)

theorem elaborates_lowerArms (standard : c.engine = .standard) :
    ∀ arms scrutinee expected {Γ s arms'}, Stands S Γ s →
      Yields c s (lowerArms arms scrutinee expected) arms' →
      Elaborates.Arms S Γ arms arms'
  | [], scrutinee, expected, Γ, s, arms', stands, ran => by
      rw [lowerArms] at ran
      cases ran
      exact .nil
  | ⟨pattern, body, origin⟩ :: arms, scrutinee, expected, Γ, s, arms', stands, ran => by
      rw [lowerArms] at ran
      obtain ⟨arm, inside, ran⟩ := ran.bind_quiet (quiet_lowerArm (quiet_lowerExpr body _)) standard
      obtain ⟨arms', rest, ran⟩ := ran.bind_quiet (quiet_lowerArms arms _ _) standard
      cases ran
      obtain ⟨pattern', _, first, rfl, inside⟩ :=
        inside.of_inScope.bind (binds_lowerPattern _ _ _) standard
      obtain ⟨body', second, inside⟩ := inside.bind_quiet (quiet_lowerExpr body _) standard
      cases inside
      exact .cons (elaborates_lowerPattern standard origin pattern _ first stands.constructors)
        (elaborates_lowerExpr standard body _ (stands.entered.bound _) second)
        (elaborates_lowerArms standard arms _ _ stands rest)

theorem elaborates_lowerStmt (standard : c.engine = .standard) :
    ∀ stmt {Γ s stmt'}, Stands S Γ s → Yields c s (lowerStmt stmt) stmt' →
      Elaborates.Stmt S Γ stmt stmt'
  | ⟨form, origin⟩, Γ, s, ⟨form', origin'⟩, stands, ran => by
      rw [lowerStmt] at ran
      exact .mk (elaborates_lowerStmtForm standard form origin stands
        (ran.of_dispatch (stage_stmt _) standard))

theorem elaborates_lowerStmtForm (standard : c.engine = .standard) :
    ∀ form origin {Γ s stmt'}, Stands S Γ s → Yields c s (lowerStmtForm form origin) stmt' →
      Elaborates.StmtForm S Γ form stmt'.form
  | .bind name mutable written value, origin, Γ, s, stmt', stands, ran => by
      rw [lowerStmtForm] at ran
      obtain ⟨declared, resolved, ran⟩ := ran.bind_quiet (quiet_resolve? _ written) standard
      obtain ⟨value', lowered, ran⟩ := ran.bind_quiet (quiet_lowerExpr value _) standard
      have values := elaborates_lowerExpr standard value _ stands lowered
      replace resolved := resolves_resolve? standard stands resolved
      have types := resolves_getD resolved value'.ty
      cases resolved with
      | some resolves =>
          obtain ⟨_, -, ran⟩ := ran.bind_quiet (.check (Check.candid_compatible _ _ _ _)) standard
          cases ran
          exact .bind values types nofun
      | none =>
          cases ran
          exact .bind values types fun _ => rfl
  | .assign target value, origin, Γ, s, stmt', stands, ran => by
      rw [lowerStmtForm] at ran
      replace ran := ran.env_bind
      rw [stands.locals] at ran
      split at ran
      · cases ran
      · next bound =>
        obtain ⟨value', lowered, ran⟩ := ran.bind_quiet (quiet_lowerExpr value _) standard
        obtain ⟨_, -, ran⟩ := ran.bind_quiet (.check (Check.candid_compatible _ _ _ _)) standard
        cases ran
        exact .assign (Option.isSome_of_eq_some bound)
          (elaborates_lowerExpr standard value _ stands lowered)
  | .expr value, origin, Γ, s, stmt', stands, ran => by
      rw [lowerStmtForm] at ran
      obtain ⟨value', lowered, ran⟩ := ran.bind_quiet (quiet_lowerExpr value _) standard
      cases ran
      exact .expr (elaborates_lowerExpr standard value _ stands lowered)
  | .return none, origin, Γ, s, stmt', stands, ran => by
      rw [lowerStmtForm] at ran
      cases ran
      exact .return
  | .return (some value), origin, Γ, s, stmt', stands, ran => by
      rw [lowerStmtForm] at ran
      replace ran := ran.get_bind
      obtain ⟨value', lowered, ran⟩ := ran.bind_quiet (quiet_lowerExpr value _) standard
      have values := elaborates_lowerExpr standard value _ stands lowered
      split at ran
      · obtain ⟨_, -, ran⟩ := ran.bind_quiet (.check (Check.candid_compatible _ _ _ _)) standard
        cases ran
        exact .returnValue values
      · cases ran
        exact .returnValue values
  | .ifElse condition thenBody elseBody, origin, Γ, s, stmt', stands, ran => by
      rw [lowerStmtForm] at ran
      obtain ⟨condition', first, ran⟩ := ran.bind_quiet (quiet_lowerExpr condition _) standard
      obtain ⟨_, -, ran⟩ := ran.bind_quiet (.check (Check.candid_boolean _ _ _)) standard
      obtain ⟨thenBody', second, ran⟩ := ran.bind_quiet (binds_lowerStmts thenBody).inScope standard
      obtain ⟨elseBody', third, ran⟩ := ran.bind_quiet (binds_lowerStmts elseBody).inScope standard
      cases ran
      exact .ifElse (elaborates_lowerExpr standard condition _ stands first)
        (elaborates_lowerStmts standard thenBody stands.entered second.of_inScope)
        (elaborates_lowerStmts standard elseBody stands.entered third.of_inScope)
  | .whileLoop condition body, origin, Γ, s, stmt', stands, ran => by
      rw [lowerStmtForm] at ran
      obtain ⟨condition', first, ran⟩ := ran.bind_quiet (quiet_lowerExpr condition _) standard
      obtain ⟨_, -, ran⟩ := ran.bind_quiet (.check (Check.candid_boolean _ _ _)) standard
      obtain ⟨body', second, ran⟩ := ran.bind_quiet (binds_lowerStmts body).inScope standard
      cases ran
      exact .whileLoop (elaborates_lowerExpr standard condition _ stands first)
        (elaborates_lowerStmts standard body stands.entered second.of_inScope)
  | .forEach name iterable body, origin, Γ, s, stmt', stands, ran => by
      rw [lowerStmtForm] at ran
      obtain ⟨iterable', first, ran⟩ := ran.bind_quiet (quiet_lowerExpr iterable _) standard
      split at ran
      · cases ran
      · obtain ⟨body', inside, ran⟩ := ran.bind_quiet (.inScope ((Acts.bind_name name _).bind_any
          fun _ => binds_lowerStmts body)) standard
        cases ran
        obtain ⟨_, _, -, rfl, inside⟩ := inside.of_inScope.bind (Acts.bind_name name _) standard
        exact .forEach (elaborates_lowerExpr standard iterable _ stands first)
          (elaborates_lowerStmts standard body (stands.entered.bound [(name, _)]) inside)
  | .leave, origin, Γ, s, stmt', stands, ran => by
      rw [lowerStmtForm] at ran
      cases ran
      exact .leave
  | .next, origin, Γ, s, stmt', stands, ran => by
      rw [lowerStmtForm] at ran
      cases ran
      exact .next

theorem elaborates_lowerStmts (standard : c.engine = .standard) :
    ∀ stmts {Γ s stmts'}, Stands S Γ s → Yields c s (lowerStmts stmts) stmts' →
      Elaborates.Stmts S Γ stmts stmts'
  | [], Γ, s, stmts', stands, ran => by
      rw [lowerStmts] at ran
      cases ran
      exact .nil
  | stmt :: stmts, Γ, s, stmts', stands, ran => by
      rw [lowerStmts] at ran
      obtain ⟨stmt', names, first, lets, ran⟩ := ran.bind (declares_lowerStmt stmt) standard
      obtain rfl := Typed.Stmt.Lets.eq_binders lets
      obtain ⟨stmts', _, rest, -, ran⟩ := ran.bind (binds_lowerStmts stmts) standard
      cases ran
      exact .cons (elaborates_lowerStmt standard stmt stands first)
        (elaborates_lowerStmts standard stmts (stands.bound _) rest)

end

end Lower

end ModuleTyping
