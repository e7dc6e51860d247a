import ModuleTyping.Proofs.Lowering.Order
import ModuleTyping.Proofs.Typed.Purity

/-!
# Effect tags of lowered functions

The tags of a function are worked out from its own body as it is lowered, one function at a
time. So what a tag says of a function, it says of the calls in its body outside of lambdas;
of what these calls do in turn the tags of the functions called speak.
-/

namespace ModuleTyping.Lower

open Relation (ReflTransGen)

variable {c : Context} {s t : LowerState}

theorem effects_of_lowerFunction (standard : c.engine = .standard) {decl : Source.Function}
    {lowered : Typed.Function} (ran : Yields c s (lowerFunction decl) lowered) :
    lowered.effects =
      if c.config.analyzeEffects then Typed.effectsOf lowered.body lowered.result else [] := by
  replace ran := ran.of_dispatch rfl standard
  rw [lowerFunctionForm_eq] at ran
  obtain ⟨sig, -, ran⟩ := ran.bind_quiet (quiet_signatureOf decl) standard
  obtain ⟨body, -, ran⟩ := ran.bind_quiet (quiet_lowerBody? decl sig) standard
  obtain rfl := typed_of_tagEffects ran
  rfl

theorem effects_of_lowerModule (standard : c.engine = .standard) {m : Source.Module}
    {lowered : Typed.Module} (ran : lowerModule m c s = (.ok lowered, t)) {f : Typed.Function}
    (member : f ∈ lowered.functions) :
    f.effects = if c.config.analyzeEffects then Typed.effectsOf f.body f.result else [] := by
  obtain ⟨_, _, _, _, -, -, -, -, bodies⟩ := passes_of_lowerModule ran
  have each := forall₂_of_mapM (P := fun _ => True) (R := fun _ f => f.effects =
      if c.config.analyzeEffects then Typed.effectsOf f.body f.result else [])
    (fun _ ran => ⟨effects_of_lowerFunction standard (congrArg Prod.fst ran), trivial⟩)
    trivial bodies
  obtain ⟨_, -, effects⟩ := exists_related each.flip member
  exact effects

/-- Where effects are worked out, a function of an accepted module is tagged pure exactly if
it has a body and every call in it outside of lambdas is harmless, and so none of these calls
is one of a built-in function. A built-in function that a tagged function reaches all the
same is called within a lambda of a tagged function, or on the way a tagged function calls
one that is not tagged. -/
theorem pure_tag_sound_outside_lambdas (config : Config) (analyzed : config.analyzeEffects = true)
    (source : Option (String → Option Summary)) {m : Source.Module} {lowered : Typed.Module}
    {after : LowerState} (accepted : (lowerModule m).run { config, source } s = (.ok lowered, after))
    {f : Typed.Function} (member : f ∈ lowered.functions) :
    (.pure ∈ f.effects ↔
      f.body.isSome = true ∧ ∀ call ∈ f.calls false, call.isHarmless = true) ∧
    (.pure ∈ f.effects →
      (∀ call ∈ f.calls false, call.callee.builtin? = none) ∧
      ∀ g, ReflTransGen lowered.Calls f g → ∀ call ∈ g.calls true, call.callee.builtin? ≠ none →
        .pure ∈ g.effects ∧ call ∉ g.calls false ∨
        ∃ h k, ReflTransGen lowered.Calls f h ∧ .pure ∈ h.effects ∧ lowered.Calls h k ∧
          .pure ∉ k.effects ∧ ReflTransGen lowered.Calls k g) := by
  have tagged_iff {f : Typed.Function} (member : f ∈ lowered.functions) : .pure ∈ f.effects ↔
      f.body.isSome = true ∧ ∀ call ∈ f.calls false, call.isHarmless = true := by
    have effects := effects_of_lowerModule rfl accepted member
    rw [if_pos analyzed] at effects
    rw [effects, Typed.pure_mem_effectsOf_iff]
  have own {f : Typed.Function} (member : f ∈ lowered.functions) (tagged : .pure ∈ f.effects) :
      ∀ call ∈ f.calls false, call.callee.builtin? = none := fun call made =>
    Typed.Call.builtin?_of_isHarmless (((tagged_iff member).mp tagged).2 call made)
  refine ⟨tagged_iff member, fun tagged => ⟨own member tagged, ?_⟩⟩
  intro g reached call made builtin
  have listed : g ∈ lowered.functions := by
    rcases reached.cases_tail with rfl | ⟨_, -, calls⟩
    · exact member
    · exact calls.1
  -- A tagged function has no such call outside of lambdas, and the way to one that is not
  -- tagged leaves the tagged ones somewhere.
  by_cases last : .pure ∈ g.effects
  · exact .inl ⟨last, fun outside => builtin (own listed last call outside)⟩
  · exact .inr (Typed.Module.exists_untagged_of_reached tagged reached last)

theorem pure_tag_sound_outside_lambdas_nested :
    let var (name : String) : Source.Expr := ⟨.var name, none⟩
    let call (callee : String) (args : List Source.Expr) : Source.Expr :=
      ⟨.call (var callee) args, none⟩
    let log : Source.Function := {
      name := "log"
      params := [{ name := "x", ty := .named "i32" }]
      result := some (.named "i32")
      body := some (call "println" [var "x"]) }
    let twice : Source.Function := {
      name := "twice"
      params := [{ name := "x", ty := .named "i32" }]
      result := some (.named "i32")
      body := some (call "log" [call "log" [var "x"]]) }
    let m : Source.Module := { name := "logging", items := [.function log, .function twice] }
    ∃ lowered after, (lowerModule m).run {} {} = (.ok lowered, after) ∧
      ∃ f ∈ lowered.functions, f.name = "twice" ∧ .pure ∈ f.effects ∧
        (∀ call ∈ f.calls false, call.isHarmless = true ∧ call.callee.builtin? = none) ∧
        ∃ h k, .pure ∈ h.effects ∧ lowered.Calls h k ∧ .pure ∉ k.effects := by
  intro var call log twice m
  have checked : ((lowerModule m).run {} {}).1.toOption.any (fun lowered =>
      decide (∃ f ∈ lowered.functions, (f.name = "twice" ∧ .pure ∈ f.effects) ∧
        ∃ g ∈ lowered.functions, (.pure ∉ g.effects) ∧
          (∃ call ∈ f.calls true, call.callee.function? = some g.name) ∧
          ∃ call ∈ g.calls true, call.callee.builtin? ≠ none)) = true := by decide +kernel
  rcases accepted : (lowerModule m).run {} {} with ⟨_ | lowered, after⟩
  · rw [accepted] at checked
    cases checked
  rw [accepted] at checked
  obtain ⟨f, member, ⟨named, tagged⟩, g, listed, untagged, calls, call, made, builtin⟩ :=
    of_decide_eq_true checked
  obtain ⟨pure_iff, sound⟩ := pure_tag_sound_outside_lambdas {} rfl none accepted member
  obtain ⟨own, reach⟩ := sound tagged
  refine ⟨lowered, after, rfl, f, member, named, tagged, ?_, ?_⟩
  · exact fun call made => ⟨(pure_iff.mp tagged).2 call made, own call made⟩
  · rcases reach g (.single ⟨listed, calls⟩) call made builtin with ⟨tagged, -⟩ | leaves
    · exact absurd tagged untagged
    · obtain ⟨h, k, -, taggedThere, calls, leaves, -⟩ := leaves
      exact ⟨h, k, taggedThere, calls, leaves⟩

/-- A function that only passes on to one that prints is tagged pure, and so is one that prints
from within a lambda. -/
theorem pure_tag_overlooks_builtins :
    let var (name : String) : Source.Expr := ⟨.var name, none⟩
    let call (callee : Source.Expr) (args : List Source.Expr) : Source.Expr :=
      ⟨.call callee args, none⟩
    let log : Source.Function := {
      name := "log"
      params := [{ name := "x", ty := .named "i32" }]
      result := some (.named "i32")
      body := some (call (var "println") [var "x"]) }
    let relay : Source.Function := {
      name := "relay"
      params := [{ name := "x", ty := .named "i32" }]
      result := some (.named "i32")
      body := some (call (var "log") [var "x"]) }
    let sum : Source.Function := {
      name := "sum"
      params := [{ name := "xs", ty := .array (.named "i32") }]
      result := some (.named "i32")
      body := some (call ⟨.member (var "xs") "fold", none⟩ [⟨.literal (.int 0), none⟩,
        ⟨.lambda [⟨"total", some (.named "i32")⟩, ⟨"x", some (.named "i32")⟩] none
          (call (var "println") [var "x"]), none⟩]) }
    let m : Source.Module :=
      { name := "logging", items := [.function log, .function relay, .function sum] }
    ∃ lowered after, (lowerModule m).run {} {} = (.ok lowered, after) ∧
      (∃ f ∈ lowered.functions, (f.name = "relay" ∧ .pure ∈ f.effects) ∧
        ∃ g, lowered.Calls f g ∧ ∃ call ∈ g.calls true, call.callee.builtin? = some "println") ∧
      ∃ f ∈ lowered.functions, (f.name = "sum" ∧ .pure ∈ f.effects) ∧
        ∃ call ∈ f.calls true, call.callee.builtin? = some "println" := by
  intro var call log relay sum m
  have checked : ((lowerModule m).run {} {}).1.toOption.any (fun lowered =>
      decide ((∃ f ∈ lowered.functions, (f.name = "relay" ∧ .pure ∈ f.effects) ∧
          ∃ g ∈ lowered.functions, (∃ call ∈ f.calls true, call.callee.function? = some g.name) ∧
            ∃ call ∈ g.calls true, call.callee.builtin? = some "println") ∧
        ∃ f ∈ lowered.functions, (f.name = "sum" ∧ .pure ∈ f.effects) ∧
          ∃ call ∈ f.calls true, call.callee.builtin? = some "println")) = true := by
    decide +kernel
  rcases accepted : (lowerModule m).run {} {} with ⟨_ | lowered, after⟩
  · rw [accepted] at checked
    cases checked
  rw [accepted] at checked
  obtain ⟨⟨f, member, tagged, g, listed, calls, builtin⟩, lambda⟩ := of_decide_eq_true checked
  exact ⟨lowered, after, rfl, ⟨f, member, tagged, g, ⟨listed, calls⟩, builtin⟩, lambda⟩

end ModuleTyping.Lower
