import ModuleTyping.Proofs.Lowering.Exports

/-!
# Constraints across modules

A summary lists the type parameters of a function by their names alone. Where it is loaded
the function has the same type parameters in the same order, but none of them is
constrained. So a call is judged there as with the constraints, except that none is rejected
for not meeting one (`Instantiation.solve_unconstrained`, `Instantiation.fails_solve`).
-/

namespace ModuleTyping

open Stateful (Fails)

/-- The signature with the same type parameters, none of them constrained. -/
def Signature.unconstrained (sig : Signature) : Signature :=
  { sig with typeParams := Summary.openParams (sig.typeParams.map TypeParam.name) }

theorem Signature.isGeneric_unconstrained (sig : Signature) :
    sig.unconstrained.isGeneric = sig.isGeneric := by
  simp [isGeneric, unconstrained, Summary.openParams]

/-! ### Faults of calls -/

namespace Check

/-- The fault is not that a constraint is unknown or not met. -/
def Unrestricted (fault : Fault) : Prop :=
  fault.kind ≠ .invalidConstraint

theorem fails_compatible (actual expected : Ty) (context : String) (origin : Origin) :
    Fails Unrestricted (compatible actual expected context origin) :=
  .ite (.pure ()) (.bind (.modifies _) fun _ => .throws nofun)

theorem fails_arguments (context : Nat → String) (origin : Origin) (number : Nat)
    (args params : List Ty) : Fails Unrestricted (arguments context origin number args params) := by
  induction args generalizing number params with
  | nil => exact .pure ()
  | cons arg args ih =>
      cases params with
      | nil => exact .pure ()
      | cons param params => exact (fails_compatible _ _ _ _).bind fun _ => ih _ _

theorem fails_call (sig : Signature) (args : List Ty) (name : String) (origin : Origin) :
    Fails Unrestricted (call sig args name origin) :=
  .ite (fails_arguments _ _ _ _ _) (.throws nofun)

end Check

namespace Instantiation

open Check (Unrestricted)

theorem fails_bindArguments (name : String) (origin : Origin) (number : Nat) (bindings : Bindings)
    (params args : List Ty) :
    Fails Unrestricted (bindArguments name origin number bindings params args) := by
  induction params generalizing number bindings args with
  | nil => exact .pure bindings
  | cons param params ih =>
      cases args with
      | nil => exact .pure bindings
      | cons arg args =>
          rw [bindArguments]
          split
          · exact ih _ _ _
          · exact Fails.bind (.modifies _) fun _ => .throws (by rintro ⟨⟩)

theorem checkConstraints_openParams (bindings : Bindings) (origin : Origin) (names : List String) :
    checkConstraints bindings origin (Summary.openParams names) = pure () := by
  induction names with
  | nil => rfl
  | cons name names ih => exact ih

/-- Without constraints no call is rejected for one. -/
theorem fails_solve (sig : Signature) (args : List Ty) (name : String) (expected : Option Ty)
    (origin : Origin) : Fails Unrestricted (solve sig.unconstrained args name expected origin) := by
  have unconstrained (bindings : Bindings) :
      Fails Unrestricted (checkConstraints bindings origin sig.unconstrained.typeParams) := by
    rw [Signature.unconstrained, checkConstraints_openParams]
    exact .pure ()
  refine .ite ?_ ((Check.fails_call _ _ _ _).bind fun _ => .pure _)
  refine .guarded nofun ?_
  refine (fails_bindArguments _ _ _ _ _ _).bind fun bound => ?_
  refine (unconstrained _).bind fun _ => ?_
  exact (Check.fails_arguments _ _ _ _ _).bind fun _ => .pure _

end Instantiation

/-! ### Calls with and without constraints -/

namespace Check

variable {α β : Type}

/-- Every run of `strict` that does not end with a fault for a constraint is one of `lax`. -/
def Relaxes (lax strict : Check α) : Prop :=
  ∀ announced, lax announced = strict announced ∨
    ∃ fault, (strict announced).1 = .error fault ∧ fault.kind = .invalidConstraint

namespace Relaxes

theorem refl (x : Check α) : Relaxes x x :=
  fun _ => .inl rfl

theorem bind {lax strict : Check α} {f g : α → Check β} (first : Relaxes lax strict)
    (rest : ∀ a, Relaxes (f a) (g a)) : Relaxes (lax >>= f) (strict >>= g) := by
  intro announced
  rw [Stateful.bind_apply, Stateful.bind_apply]
  rcases first announced with same | ⟨fault, failed, kind⟩
  · rw [same]
    rcases strict announced with ⟨fault | a, later⟩
    · exact .inl rfl
    · exact rest a later
  · refine .inr ⟨fault, ?_, kind⟩
    generalize strict announced = run at failed ⊢
    rcases run with ⟨fault | a, later⟩
    · cases failed
      rfl
    · cases failed

theorem ite {p : Prop} [Decidable p] {lax lax' strict strict' : Check α}
    (pos : Relaxes lax strict) (neg : Relaxes lax' strict') :
    Relaxes (if p then lax else lax') (if p then strict else strict') := by
  split
  · exact pos
  · exact neg

theorem guarded {p : Prop} [Decidable p] {cause : Cause} {origin : Origin}
    {lax strict : Unit → Check α} (next : Relaxes (lax ()) (strict ())) :
    Relaxes (if p then lax () else fail cause origin >>= lax)
      (if p then strict () else fail cause origin >>= strict) :=
  .ite next (.bind (.refl _) fun _ => next)

end Relaxes

end Check

namespace Instantiation

open Check (Relaxes)

theorem isComplete_unconstrained (sig : Signature) (bindings : Bindings) :
    isComplete sig.unconstrained bindings = isComplete sig bindings := by
  unfold isComplete Signature.unconstrained Summary.openParams
  rw [List.all_map, List.all_map]
  rfl

theorem refine_unconstrained (sig : Signature) (expected : Option Ty) (bindings : Bindings) :
    refine sig.unconstrained expected bindings = refine sig expected bindings := by
  unfold refine
  rw [isComplete_unconstrained]
  rfl

theorem relaxes_checkConstraints (bindings : Bindings) (origin : Origin)
    (typeParams : List TypeParam) :
    Relaxes (pure ()) (checkConstraints bindings origin typeParams) := by
  induction typeParams with
  | nil => exact .refl _
  | cons param rest ih =>
      rw [checkConstraints]
      split
      · split
        · exact ih
        · exact fun _ => .inr ⟨_, rfl, rfl⟩
      · exact ih

/-- Without its constraints a signature is called as with them, but for the calls that a
constraint rejects. -/
theorem solve_unconstrained (sig : Signature) (args : List Ty) (name : String)
    (expected : Option Ty) (origin : Origin) :
    Relaxes (solve sig.unconstrained args name expected origin)
      (solve sig args name expected origin) := by
  have constraints (bindings : Bindings) :
      Relaxes (checkConstraints bindings origin sig.unconstrained.typeParams)
        (checkConstraints bindings origin sig.typeParams) := by
    rw [Signature.unconstrained, checkConstraints_openParams]
    exact relaxes_checkConstraints bindings origin sig.typeParams
  unfold solve
  rw [Signature.isGeneric_unconstrained]
  refine .ite (.guarded ?_) (.refl _)
  refine (Relaxes.refl _).bind fun bound => ?_
  dsimp only
  rw [refine_unconstrained]
  exact (constraints _).bind fun _ => .refl _

end Instantiation

/-! ### Loading -/

namespace TypeParam

/-- Type parameters lose nothing with their constraints exactly if they have none. -/
theorem openParams_names_iff {typeParams : List TypeParam} :
    Summary.openParams (typeParams.map TypeParam.name) = typeParams ↔
      ∀ param ∈ typeParams, param.constraint = none := by
  induction typeParams with
  | nil => simp [Summary.openParams]
  | cons param rest ih =>
      rw [List.forall_mem_cons, ← ih]
      refine List.cons_eq_cons.trans (and_congr_left fun _ => ?_)
      cases param
      simp [eq_comm]

end TypeParam

theorem SymbolTable.get?_of_declared? {α : Type} {table : SymbolTable α} {name : String}
    {declared : Entry α} (last : table.declared? name = some declared) :
    ∃ entry, table.get? name = some entry ∧ entry.value = declared.value := by
  obtain ⟨entry, held, rfl⟩ := Option.map_eq_some_iff.mp last
  refine ⟨entry, ?_, rfl⟩
  have registered : table.entries.contains name = true := by
    rw [Dict.contains, held]
    rfl
  rw [get?, canonicalName?_of_registered registered, Option.bind_some, held]

namespace Summary

theorem Function.typeParams_of_signatureIn {types : TypeTable} {decl : Function} {sig : Signature}
    (given : decl.signatureIn types = .ok sig) : sig.typeParams = openParams decl.typeParams := by
  obtain ⟨params, -, given⟩ := bind_eq_ok_iff.mp given
  obtain ⟨result, -, given⟩ := bind_eq_ok_iff.mp given
  cases given
  rfl

/-- The last function of a name in the summary is the last exported one in the module. -/
theorem findRev?_ofModule (m : Typed.Module) (f : String) :
    (ofModule m).exports.functions.findRev? (·.name == f) =
      (m.functions.findRev? fun decl => decl.exported && decl.name == f).map ofFunction := by
  simp only [ofModule, List.findRev?_eq_find?_reverse, ← List.map_reverse, List.find?_map,
    ← List.filter_reverse, List.find?_filter, Bool.decide_and, Bool.decide_eq_true]
  rfl

end Summary

/-- Where the summary of a module is loaded, an exported function has the type parameters that
it was declared with, in the same order and under the same names, but none of them has a
constraint; so they are the declared ones exactly if those have none either. No call is
rejected there for a constraint, and a call that the declared constraints admit is judged as
if they were there. -/
theorem loaded_function_unconstrained (config : Config) {m : Source.Module}
    {lowered : Typed.Module} {summary : Summary}
    (accepted : compileModule config m = .ok (lowered, summary)) {env loaded : Environment}
    (atRest : env.AtRest) (loads : summary.load.run env = (.ok (), loaded)) {f : String}
    {decl : Source.Function}
    (last : m.functions.findRev? (fun decl => decl.exported && decl.name == f) = some decl) :
    ∃ typeParams known, TypeParam.normalize decl.typeParams = .ok typeParams ∧
      loaded.functions.entry? f = some known ∧
      known.value.typeParams.map TypeParam.name = decl.typeParams.map TypeParam.name ∧
      (∀ param ∈ known.value.typeParams, param.constraint = none) ∧
      (known.value.typeParams = typeParams ↔ ∀ param ∈ typeParams, param.constraint = none) ∧
      ∀ args name expected origin,
        Fails (·.kind ≠ .invalidConstraint)
          (Instantiation.solve known.value args name expected origin) ∧
        Check.Relaxes (Instantiation.solve known.value args name expected origin)
          (Instantiation.solve { known.value with typeParams } args name expected origin) := by
  obtain ⟨after, ran, rfl⟩ := lowered_of_compileModule accepted
  obtain ⟨-, _, -, items⟩ := Lower.elaborates_lowerModule rfl LowerState.Reachable.start.atRest ran
  obtain ⟨-, functions⟩ := items.parts
  obtain ⟨function, found, elaborated⟩ : ∃ function,
      lowered.functions.findRev? (fun decl => decl.exported && decl.name == f) = some function ∧
        Elaborates.Function after.env decl function := by
    have counterpart := Lower.rel_findRev?
      (p := fun decl : Source.Function => decl.exported && decl.name == f)
      (q := fun decl : Typed.Function => decl.exported && decl.name == f)
      (fun elaborated => by rw [elaborated.exported, elaborated.name]) functions
    rw [last] at counterpart
    generalize lowered.functions.findRev? _ = found at counterpart
    cases counterpart with
    | some elaborated => exact ⟨_, rfl, elaborated⟩
  -- It is the last one of its name in the summary too, so it is what the name stands for.
  obtain ⟨before, latest⟩ := Summary.latest_load f atRest loads
  obtain ⟨sig, given, declared⟩ :=
    latest.given ((Summary.findRev?_ofModule lowered f).trans (congrArg (Option.map _) found))
  obtain ⟨known, held, value⟩ := SymbolTable.get?_of_declared? declared
  have typeParams : known.value.typeParams =
      Summary.openParams (function.typeParams.map TypeParam.name) := by
    rw [value]
    exact Summary.Function.typeParams_of_signatureIn given
  have unconstrained : known.value =
      { known.value with typeParams := function.typeParams }.unconstrained := by
    rw [Signature.unconstrained, ← typeParams]
  refine ⟨function.typeParams, known, elaborated.typeParams, held, ?_, ?_, ?_, ?_⟩
  · rw [typeParams, Summary.names_openParams, TypeParam.names_of_normalize elaborated.typeParams]
  · rw [typeParams]
    simp [Summary.openParams]
  · rw [typeParams, TypeParam.openParams_names_iff]
  · intro args name expected origin
    rw [unconstrained]
    exact ⟨Instantiation.fails_solve _ _ _ _ _, Instantiation.solve_unconstrained _ _ _ _ _⟩

theorem loaded_function_unconstrained_label :
    let label : Source.Function := {
      name := "label"
      typeParams := [{ name := "T", constraint := some " Numeric " }, { name := "U" }]
      params := [{ name := "x", ty := .named "T" }, { name := "tags", ty := .array (.named "U") }]
      result := some (.array (.named "U"))
      body := some ⟨.var "tags", none⟩
      exported := true }
    let m : Source.Module := { name := "numbers", items := [.function label] }
    ∃ lowered summary loaded known, compileModule {} m = .ok (lowered, summary) ∧
      Environment.AtRest {} ∧ summary.load.run {} = (.ok (), loaded) ∧
      m.functions.findRev? (fun decl => decl.exported && decl.name == "label") = some label ∧
      loaded.functions.entry? "label" = some known ∧
      known.value.typeParams.map TypeParam.name = ["T", "U"] ∧
      (∀ param ∈ known.value.typeParams, param.constraint = none) ∧
      known.value.typeParams ≠
        [{ name := "T", constraint := some "Numeric" }, { name := "U" }] ∧
      Fails (·.kind ≠ .invalidConstraint)
        (Instantiation.solve known.value [.string, .array .i32] "label" none none) := by
  intro label m
  have checked : (compileModule {} m).toOption.any (fun compiled =>
      (compiled.2.load.run {}).1.toOption.isSome) = true := by decide +kernel
  rcases accepted : compileModule {} m with _ | ⟨lowered, summary⟩
  · rw [accepted] at checked
    cases checked
  rcases loads : summary.load.run {} with ⟨_ | _, loaded⟩
  · simp [accepted, Except.toOption, loads] at checked
  have atRest : Environment.AtRest {} := LowerState.Reachable.start.atRest.env
  obtain ⟨typeParams, known, normalized, held, names, unconstrained, same, calls⟩ :=
    loaded_function_unconstrained {} accepted atRest loads (f := "label") rfl
  have declared : (TypeParam.normalize label.typeParams).toOption =
      some [{ name := "T", constraint := some "Numeric" }, { name := "U" }] := by decide +kernel
  rw [normalized] at declared
  cases declared
  exact ⟨lowered, summary, loaded, known, rfl, atRest, loads, rfl, held, names, unconstrained,
    mt same.mp (by decide), (calls _ _ _ _).1⟩

/-- A call that is rejected for a constraint in the module that declares the function is
accepted where the summary of the module is loaded. -/
theorem loaded_function_accepts_unmet_constraint :
    let double : Source.Function := {
      name := "double"
      typeParams := [{ name := "T", constraint := some "Numeric" }]
      params := [{ name := "x", ty := .named "T" }]
      result := some (.named "T")
      body := some ⟨.var "x", none⟩
      exported := true }
    let m : Source.Module := { name := "numbers", items := [.function double] }
    let defining := ((Lower.lowerModule m).run {} {}).2.env
    let call (sig : Signature) : Except FaultKind Unit :=
      ((Instantiation.solve sig [.string] "double" none none).run []).1.mapError Fault.kind |>.map
        fun _ => ()
    ∃ lowered summary loaded, compileModule {} m = .ok (lowered, summary) ∧
      summary.load.run {} = (.ok (), loaded) ∧
      (defining.functions.entry? "double").map
          (fun own => (own.value.typeParams, call own.value)) =
        some ([{ name := "T", constraint := some "Numeric" }], .error .invalidConstraint) ∧
      (loaded.functions.entry? "double").map
          (fun known => (known.value.typeParams, call known.value)) =
        some ([{ name := "T" }], .ok ()) := by
  intro double m defining call
  have checked : (compileModule {} m).toOption.any (fun compiled =>
      (compiled.2.load.run {}).1.toOption.isSome &&
        ((compiled.2.load.run {}).2.functions.entry? "double").map
          (fun known => (known.value.typeParams, call known.value)) ==
        some ([{ name := "T" }], .ok ())) = true := by decide +kernel
  rcases accepted : compileModule {} m with _ | ⟨lowered, summary⟩
  · rw [accepted] at checked
    cases checked
  rcases loads : summary.load.run {} with ⟨_ | _, loaded⟩
  · simp [accepted, Except.toOption, loads] at checked
  refine ⟨lowered, summary, loaded, rfl, loads, by decide +kernel, ?_⟩
  simpa [accepted, Except.toOption, loads] using checked

end ModuleTyping
