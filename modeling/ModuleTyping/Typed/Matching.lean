import ModuleTyping.Check
import ModuleTyping.Typed.Coverage

/-!
# Typing matches

The arms of a match must agree with the first one, whose type is that of the match, and a
match on a sum must cover it.
-/

namespace ModuleTyping.Typed

/-- Wants the bodies of the arms to be usable as `result`. The arms are numbered from
`number`. -/
def checkArms (result : Ty) (origin : Origin) : Nat → List Arm → Check Unit
  | _, [] => pure ()
  | number, arm :: rest => do
    Check.compatible arm.body.ty result s!"match arm {number}" (arm.body.origin <|> origin)
    checkArms result origin (number + 1) rest

/-- Wants the arms to cover the variants of the scrutinee. -/
def checkCoverage (types : TypeTable) (scrutinee : Ty) (arms : List Arm) (origin : Origin) :
    Check Unit :=
  match uncovered types scrutinee (arms.map Arm.pattern) with
  | [] => pure ()
  | names => Check.fail (.uncoveredVariants names) origin

/-- The type of a match with these arms. Its coverage is checked only when that is asked
for. -/
def matchType (coverage : Bool) (types : TypeTable) (scrutinee : Ty) (arms : List Arm)
    (origin : Origin) : Check Ty :=
  match arms with
  | [] => Check.fail .emptyMatch origin
  | first :: _ => do
    checkArms first.body.ty origin 1 arms
    if coverage then
      checkCoverage types scrutinee arms origin
    return first.body.ty

/-- Works out the arms of a match in order, then its type. A match without arms is rejected
before anything else. -/
def analyzeMatch (coverage : Bool) (types : TypeTable) (scrutinee : Ty) (arms : List (Check Arm))
    (origin : Origin) : Check (List Arm × Ty) := do
  if arms.isEmpty then
    Check.fail .emptyMatch origin
  let arms ← arms.mapM id
  return (arms, ← matchType coverage types scrutinee arms origin)

end ModuleTyping.Typed
