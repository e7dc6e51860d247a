import ModuleTyping.Inference.Members
import ModuleTyping.Inference.Operators
import ModuleTyping.Inference.Records
import ModuleTyping.Proofs.Outcomes
import ModuleTyping.Typed.Matching

/-!
# What checks announce

A check announces a mismatch exactly when it ends with an error in types, and then once.
What was announced before it plays no part in how it ends and stays in front of what it
announces. `Check.Candid` states the two together; it is closed under sequencing, and
every check of calls, members, operators, record literals and matches has it.
-/

namespace ModuleTyping

/-- The announcements that go with a fault: one for an error in types, in the same words if
the fault is a mismatch, and none for any other. -/
def Fault.AnnouncedBy (fault : Fault) (announced : List Mismatch) : Prop :=
  if fault.isTypeError then
    ∃ mismatch, announced = [mismatch] ∧
      (fault.kind = .typeMismatch →
        fault.cause = .typeMismatch mismatch.context mismatch.expected mismatch.actual)
  else announced = []

/-- The announcements that go with an outcome. -/
def Announces {α : Type} : Except Fault α → List Mismatch → Prop
  | .ok _, announced => announced = []
  | .error fault, announced => fault.AnnouncedBy announced

theorem Fault.announcedBy_nil {fault : Fault} (other : fault.isTypeError = false) :
    fault.AnnouncedBy [] := by
  simp [AnnouncedBy, other]

namespace Check

variable {α β : Type}

/-- The check neither reads nor drops earlier announcements, and announces what its outcome
calls for. -/
structure Candid (x : Check α) : Prop where
  steady : ∀ announced, x announced = ((x []).1, announced ++ (x []).2)
  announces : Announces (x []).1 (x []).2

namespace Candid

theorem pure (value : α) : Candid (Pure.pure value : Check α) where
  steady announced := by
    show (Except.ok value, announced) = (Except.ok value, announced ++ [])
    rw [List.append_nil]
  announces := rfl

theorem fail {cause : Cause} (other : cause.kind.isTypeError = false) (origin : Origin) :
    Candid (Check.fail cause origin : Check α) where
  steady announced := by
    show (_, announced) = (_, announced ++ [])
    rw [List.append_nil]
    rfl
  announces := Fault.announcedBy_nil other

/-- An announcement together with the fault it goes with. -/
theorem announce_fail {mismatch : Mismatch} {cause : Cause} {origin : Origin}
    (goes : Fault.AnnouncedBy { cause, origin } [mismatch]) :
    Candid (do announce mismatch; Check.fail cause origin : Check α) where
  steady _ := rfl
  announces := goes

theorem reject (context expected actual : String) (origin : Origin) :
    Candid (Check.reject context expected actual origin : Check α) :=
  announce_fail ⟨_, rfl, fun _ => rfl⟩

theorem bind {x : Check α} {f : α → Check β} (first : Candid x) (next : ∀ a, Candid (f a)) :
    Candid (x >>= f) := by
  have announces := first.announces
  constructor
  · intro announced
    rw [Stateful.bind_apply, Stateful.bind_apply, first.steady announced]
    rcases outcome : x [] with ⟨fault | a, later⟩
    · rfl
    · rw [outcome] at announces
      obtain rfl : later = [] := announces
      simpa using (next a).steady announced
  · rw [Stateful.bind_apply]
    rcases outcome : x [] with ⟨fault | a, later⟩
    · rw [outcome] at announces
      exact announces
    · rw [outcome] at announces
      obtain rfl : later = [] := announces
      exact (next a).announces

theorem ite {p : Prop} [Decidable p] {x y : Check α} (pos : Candid x) (neg : Candid y) :
    Candid (if p then x else y) := by
  split
  · exact pos
  · exact neg

/-- What comes after a condition that ends the check with a fault where it does not hold. -/
theorem guarded {p : Prop} [Decidable p] {cause : Cause} {origin : Origin} {rest : Unit → Check α}
    (other : cause.kind.isTypeError = false) (next : Candid (rest ())) :
    Candid (if p then rest () else Check.fail cause origin >>= rest) :=
  .ite next (.bind (.fail other origin) fun _ => next)

end Candid

/-! ### Comparing types -/

theorem candid_compatible (actual expected : Ty) (context : String) (origin : Origin) :
    Candid (compatible actual expected context origin) :=
  .ite (.pure ()) (.reject _ _ _ _)

theorem candid_boolean (actual : Ty) (context : String) (origin : Origin) :
    Candid (boolean actual context origin) :=
  .ite (.pure ()) (.reject _ _ _ _)

theorem candid_numeric (actual : Ty) (context : String) (origin : Origin) :
    Candid (numeric actual context origin) :=
  .ite (.pure ()) (.reject _ _ _ _)

theorem candid_argumentCount (method : String) (found expected : Nat) (origin : Origin) :
    Candid (argumentCount method found expected origin) :=
  .ite (.pure ()) (.fail rfl _)

theorem candid_arguments (context : Nat → String) (origin : Origin) (number : Nat)
    (args params : List Ty) : Candid (arguments context origin number args params) := by
  induction args generalizing number params with
  | nil => exact .pure ()
  | cons arg args ih =>
      cases params with
      | nil => exact .pure ()
      | cons param params =>
          exact (candid_compatible _ _ _ _).bind fun _ => ih (number + 1) params

theorem candid_call (sig : Signature) (args : List Ty) (name : String) (origin : Origin) :
    Candid (call sig args name origin) :=
  .ite (candid_arguments _ _ _ _ _) (.fail rfl _)

end Check

open Check

/-! ### Calls -/

namespace Instantiation

/-- A conflict of bindings is announced as a mismatch of the argument it came up at. -/
theorem candid_bindArguments (name : String) (origin : Origin) (number : Nat)
    (bindings : Bindings) (params args : List Ty) :
    Candid (bindArguments name origin number bindings params args) := by
  induction params generalizing number bindings args with
  | nil => exact .pure bindings
  | cons param params ih =>
      cases args with
      | nil => exact .pure bindings
      | cons arg args =>
          rw [bindArguments]
          split
          · exact ih _ _ _
          · exact .announce_fail ⟨_, rfl, nofun⟩

theorem candid_checkConstraints (bindings : Bindings) (origin : Origin)
    (params : List TypeParam) : Candid (checkConstraints bindings origin params) := by
  induction params with
  | nil => exact .pure ()
  | cons param params ih =>
      rw [checkConstraints]
      split
      · exact .guarded rfl ih
      · exact ih

theorem candid_solve (sig : Signature) (args : List Ty) (name : String) (expected : Option Ty)
    (origin : Origin) : Candid (solve sig args name expected origin) := by
  refine .ite ?_ ((candid_call _ _ _ _).bind fun _ => .pure _)
  refine .guarded rfl ?_
  refine (candid_bindArguments _ _ _ _ _ _).bind fun bound => ?_
  refine (candid_checkConstraints _ _ _).bind fun _ => ?_
  exact (candid_arguments _ _ _ _ _).bind fun _ => .pure _

end Instantiation

theorem Ty.candid_callResult (callee : Ty) (args : List Ty) (origin : Origin) :
    Candid (callee.callResult args origin) := by
  unfold callResult
  split
  · refine .guarded rfl ?_
    exact (candid_arguments _ _ _ _ _).bind fun _ => .pure _
  · exact .ite (.pure _) (.fail rfl _)

namespace Environment

theorem candid_nameType (env : Environment) (name : String) (origin : Origin) :
    Candid (env.nameType name origin) := by
  unfold nameType
  split
  · exact .pure _
  · split
    · exact .pure _
    · split
      · exact .pure _
      · exact .ite (.pure _) (.fail rfl _)

theorem candid_callByName (env : Environment) (name : String) (args : List Ty)
    (expected : Option Ty) (origin : Origin) :
    Candid (env.callByName name args expected origin) := by
  unfold callByName
  split
  · exact (Ty.candid_callResult _ _ _).bind fun _ => .pure _
  · split
    · exact .pure _
    · split
      · exact (Instantiation.candid_solve _ _ _ _ _).bind fun _ => .pure _
      · exact .fail rfl _

theorem candid_callMember (entry : Entry Signature) (container member : String) (args : List Ty)
    (expected : Option Ty) (origin : Origin) :
    Candid (callMember entry container member args expected origin) :=
  (Instantiation.candid_solve _ _ _ _ _).bind fun _ => .pure _

end Environment

/-! ### Members, methods and elements -/

namespace Ty

theorem candid_arrayMethod (element : Ty) (method : String) (args : List Ty) (origin : Origin) :
    Candid (element.arrayMethod method args origin) := by
  have counted (found expected : Nat) (ty : Ty) :
      Candid (do Check.argumentCount method found expected origin; return ty) :=
    (candid_argumentCount _ _ _ _).bind fun _ => .pure _
  unfold arrayMethod
  split
  · exact counted _ _ _
  · exact counted _ _ _
  · exact counted _ _ _
  · exact (candid_callResult _ _ _).bind fun _ => .pure _
  · refine (candid_callResult _ _ _).bind fun _ => ?_
    exact (candid_boolean _ _ _).bind fun _ => .pure _
  · refine (candid_callResult _ _ _).bind fun _ => ?_
    exact (candid_compatible _ _ _ _).bind fun _ => .pure _
  · exact .fail rfl _
  · exact .fail rfl _
  · exact .fail rfl _
  · exact .fail rfl _

theorem candid_stringMethod (method : String) (args : List Ty) (origin : Origin) :
    Candid (stringMethod method args origin) := by
  have counted (ty : Ty) :
      Candid (do Check.argumentCount method args.length 0 origin; return ty) :=
    (candid_argumentCount _ _ _ _).bind fun _ => .pure _
  unfold stringMethod
  split
  · exact (candid_compatible _ _ _ _).bind fun _ => .pure _
  · exact .fail rfl _
  · exact counted _
  · exact counted _
  · exact counted _
  · exact counted _
  · exact counted _
  · exact counted _
  · exact counted _
  · exact .fail rfl _

theorem candid_methodResult (receiver : Ty) (method : String) (args : List Ty)
    (origin : Origin) : Candid (receiver.methodResult method args origin) := by
  unfold methodResult
  split
  · exact candid_arrayMethod _ _ _ _
  · refine .ite (.pure _) (.ite (candid_stringMethod _ _ _) (.ite ?_ (.fail rfl _)))
    exact (candid_argumentCount _ _ _ _).bind fun _ => .pure _

theorem candid_elementAt (object position : Ty) (origin : Origin) :
    Candid (object.elementAt position origin) := by
  unfold elementAt
  split
  · exact (candid_numeric _ _ _).bind fun _ => .pure _
  · exact (candid_compatible _ _ _ _).bind fun _ => .pure _
  · refine .ite (.pure _) (.ite ?_ (.fail rfl _))
    exact (candid_numeric _ _ _).bind fun _ => .pure _

end Ty

theorem Environment.candid_memberType (env : Environment) (object : Ty) (member : String)
    (origin : Origin) : Candid (env.memberType object member origin) := by
  refine .ite (.pure _) ?_
  split
  · exact .pure _
  · split
    · exact .pure _
    · split
      · split
        · exact .pure _
        · exact .fail rfl _
      · split
        · exact .pure _
        · exact .ite (.pure _) (.ite (.pure _) (.fail rfl _))

/-! ### Operators -/

namespace Ty

theorem candid_combineNumbers (lhs rhs : Ty) (origin : Origin) :
    Candid (lhs.combineNumbers rhs origin) := by
  unfold combineNumbers
  split
  · exact .pure _
  · exact .pure _
  · exact .pure _
  · exact .ite (.pure _) (.ite (.pure _) (.ite (.pure _) (.ite (.pure _) (.fail rfl _))))

theorem candid_addResult (lhs rhs : Ty) (origin : Origin) :
    Candid (lhs.addResult rhs origin) :=
  .ite (.pure _) (.ite (.pure _) (.ite (.pure _) (.ite (candid_combineNumbers _ _ _)
    (.fail rfl _))))

end Ty

theorem BinaryOp.candid_checkNumeric (op : BinaryOp) (lhs rhs : Ty) (origin : Origin) :
    Candid (op.checkNumeric lhs rhs origin) :=
  (candid_numeric _ _ _).bind fun _ => candid_numeric _ _ _

theorem BinaryOp.candid_result (op : BinaryOp) (lhs rhs : Ty) (origin : Origin) :
    Candid (op.result lhs rhs origin) := by
  have numbers : Candid (do op.checkNumeric lhs rhs origin; lhs.combineNumbers rhs origin) :=
    (op.candid_checkNumeric _ _ _).bind fun _ => Ty.candid_combineNumbers _ _ _
  have compared (ty : Ty) : Candid (do op.checkNumeric lhs rhs origin; return ty) :=
    (op.candid_checkNumeric _ _ _).bind fun _ => .pure _
  have equated : Candid (do
      Check.compatible rhs lhs (rightContext op) origin
      return Ty.bool) :=
    (candid_compatible _ _ _ _).bind fun _ => .pure _
  have joined : Candid (do
      Check.boolean lhs (leftContext op) origin
      Check.boolean rhs (rightContext op) origin
      return Ty.bool) :=
    (candid_boolean _ _ _).bind fun _ => (candid_boolean _ _ _).bind fun _ => .pure _
  cases op with
  | add => exact Ty.candid_addResult _ _ _
  | sub | mul | mod => exact numbers
  | div | lt | gt | le | ge => exact compared _
  | eq | ne => exact equated
  | and | or => exact joined

theorem UnaryOp.candid_result (op : UnaryOp) (operand : Ty) (origin : Origin) :
    Candid (op.result operand origin) := by
  cases op with
  | not => exact (candid_boolean _ _ _).bind fun _ => .pure _
  | neg | plus => exact (candid_numeric _ _ _).bind fun _ => .pure _

/-! ### Record literals -/

theorem TypeInfo.candid_checkFields (typeName : String) (given : List (String × Ty))
    (origin : Origin) (bindings : Bindings) (declared : List (String × Ty)) :
    Candid (checkFields typeName given origin bindings declared) := by
  induction declared generalizing bindings with
  | nil => exact .pure _
  | cons field rest ih =>
      obtain ⟨name, ty⟩ := field
      rw [checkFields]
      split
      · exact .fail rfl _
      · split
        · exact ih _
        · exact (candid_compatible _ _ _ _).bind fun _ => ih _

namespace Environment

theorem candid_namedRecord (env : Environment) (name : String) (given : List (String × Ty))
    (origin : Origin) : Candid (env.namedRecord name given origin) := by
  unfold namedRecord
  split
  · exact .fail rfl _
  · split
    · exact .fail rfl _
    · split
      · exact .fail rfl _
      · exact (TypeInfo.candid_checkFields _ _ _ _ _).bind fun _ => .pure _

theorem candid_recordType (env : Environment) (name : Option String)
    (given : List (String × Ty)) (origin : Origin) :
    Candid (env.recordType name given origin) := by
  cases name with
  | some name => exact env.candid_namedRecord name given origin
  | none => exact .pure _

end Environment

/-! ### Matches -/

namespace Typed

theorem candid_checkArms (result : Ty) (origin : Origin) (number : Nat) (arms : List Arm) :
    Candid (checkArms result origin number arms) := by
  induction arms generalizing number with
  | nil => exact .pure ()
  | cons arm rest ih => exact (candid_compatible _ _ _ _).bind fun _ => ih (number + 1)

theorem candid_checkCoverage (types : TypeTable) (scrutinee : Ty) (arms : List Arm)
    (origin : Origin) : Candid (checkCoverage types scrutinee arms origin) := by
  unfold checkCoverage
  split
  · exact .pure ()
  · exact .fail rfl _

theorem candid_matchType (coverage : Bool) (types : TypeTable) (scrutinee : Ty)
    (arms : List Arm) (origin : Origin) :
    Candid (matchType coverage types scrutinee arms origin) := by
  cases arms with
  | nil => exact .fail rfl _
  | cons first rest =>
      refine (candid_checkArms _ _ _ _).bind fun _ => ?_
      cases coverage with
      | true => exact (candid_checkCoverage _ _ _ _).bind fun _ => .pure _
      | false => exact .pure _

end Typed

end ModuleTyping
