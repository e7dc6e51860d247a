import ModuleTyping.Proofs.Deliveries
import ModuleTyping.Proofs.Lowering.Steps

/-!
# What a pass announces

A pass that ends with an error in types has announced one mismatch, and any other pass none.
Mismatches are announced at the highest level, so no least level of a bus or of a
subscription holds them back.
-/

namespace ModuleTyping

theorem Level.le_error (level : Level) : level ≤ .error := by
  cases level <;> decide

/-- A mismatch reaches everyone who subscribed to mismatches. -/
theorem Mismatch.receivers_event {σ : Type} (bus : Bus σ) (mismatch : Mismatch) :
    bus.receivers mismatch.event =
      (bus.subscribers "type_mismatch").map Subscription.subscriber := by
  have accepted (subscription : Subscription σ) : Bus.accepts subscription .error = true := by
    unfold Bus.accepts
    split
    · rfl
    · exact decide_eq_true (Level.le_error _)
  refine (if_pos (Level.le_error bus.least)).trans (congrArg _ (List.filter_eq_self.mpr ?_))
  intro subscription _
  exact accepted subscription

/-- A mismatch that is published is handed to everyone who subscribed to mismatches, once for
each subscription. -/
theorem Mismatch.publish_event {σ : Type} (bus : Bus σ) (mismatch : Mismatch) :
    let subscriptions := bus.subscribers "type_mismatch"
    bus.publish mismatch.event = (subscriptions.length,
      subscriptions.map fun subscription => (subscription.subscriber, mismatch.event)) := by
  rw [Bus.publish_eq, receivers_event, List.length_map, List.map_map]
  rfl

/-- The outcome is an error in types. -/
def endsInTypeError {α : Type} : Except Fault α → Bool
  | .ok _ => false
  | .error fault => fault.isTypeError

theorem length_of_announces {α : Type} {outcome : Except Fault α} {announced : List Mismatch}
    (announces : Announces outcome announced) :
    announced.length = if endsInTypeError outcome then 1 else 0 := by
  cases outcome with
  | ok value =>
      obtain rfl : announced = [] := announces
      rfl
  | error fault =>
      replace announces : fault.AnnouncedBy announced := announces
      unfold Fault.AnnouncedBy at announces
      unfold endsInTypeError
      split at announces
      · next typeError =>
        obtain ⟨mismatch, rfl, -⟩ := announces
        rw [if_pos typeError]
        rfl
      · next other =>
        rw [announces, if_neg other]
        rfl

theorem message_of_announces {α : Type} {fault : Fault} {announced : List Mismatch}
    (announces : Announces (.error fault : Except Fault α) announced)
    (rejected : fault.kind = .typeMismatch) {mismatch : Mismatch}
    (member : mismatch ∈ announced) :
    fault.message = s!"{mismatch.context} expected {mismatch.expected}, got {mismatch.actual}" := by
  have typeError : fault.isTypeError = true := by
    rw [Fault.isTypeError, rejected]
    rfl
  replace announces : fault.AnnouncedBy announced := announces
  unfold Fault.AnnouncedBy at announces
  rw [if_pos typeError] at announces
  obtain ⟨mismatch', rfl, worded⟩ := announces
  obtain rfl := List.mem_singleton.mp member
  rw [Fault.message, worded rejected]
  rfl

namespace Lower

theorem reports_tagEffects (decl : Source.Function) (sig : Signature)
    (body : Option Typed.Expr) : Reports (tagEffects decl sig body) := by
  refine .read_bind fun context => ?_
  split
  · exact (Regular.modifyEnv _).reports.bind fun _ => .pure _
  · exact .pure _

theorem reports_lowerFunction (decl : Source.Function) : Reports (lowerFunction decl) := by
  refine .dispatch rfl ?_ _
  rw [lowerFunctionForm_eq]
  refine (regular_signatureOf decl).reports.bind fun sig => ?_
  refine (quiet_lowerBody? decl sig).reports.bind fun body => ?_
  exact (reports_tagEffects decl sig body).bind fun effects => .pure _

theorem reports_lowerModule (m : Source.Module) : Reports (lowerModule m) := by
  rw [lowerModule_eq]
  refine (regular_lowerTypes m).reports.bind fun types => ?_
  refine Reports.bind ?_ fun functions => (regular_assemble m types functions).reports
  exact (regular_declares _).reports.bind fun _ => .mapM reports_lowerFunction _

/-- Lowering a module announces one mismatch if it ends with an error in types, and nothing
otherwise. A fault that is a mismatch says what was announced, and whatever the least level
of the pass, publishing it hands it to everyone who subscribed to mismatches. -/
theorem type_errors_announced_once (config : Config) (source : Option (String → Option Summary))
    (m : Source.Module) (s : LowerState) :
    let run := (lowerModule m).run { config, source } s
    ∃ announced, run.2.announced = s.announced ++ announced ∧
      announced.length = (if endsInTypeError run.1 then 1 else 0) ∧
      ∀ mismatch ∈ announced,
        (∀ fault, run.1 = .error fault → fault.kind = .typeMismatch → fault.message =
          s!"{mismatch.context} expected {mismatch.expected}, got {mismatch.actual}") ∧
        ∀ (σ : Type) (subscriptions : Dict (List (Subscription σ))),
          let bus : Bus σ := { least := config.eventLevel, subscriptions }
          let subscribed := bus.subscribers "type_mismatch"
          bus.publish mismatch.event = (subscribed.length,
            subscribed.map fun subscription => (subscription.subscriber, mismatch.event)) := by
  intro run
  obtain ⟨announced, after, announces⟩ := reports_lowerModule m { config, source } s rfl
  refine ⟨announced, after, length_of_announces announces, ?_⟩
  intro mismatch member
  refine ⟨?_, fun σ subscriptions => mismatch.publish_event _⟩
  intro fault failed rejected
  replace announces : Announces run.1 announced := announces
  rw [failed] at announces
  exact message_of_announces announces rejected member

end Lower

end ModuleTyping
