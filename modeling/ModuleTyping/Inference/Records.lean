import ModuleTyping.Inference.Calls

/-!
# Record literals

A record literal that names its type is checked against the declaration. One that does
not is given the declared record it fits best: every field must fit, and of those that
fit the one with the most determined type arguments is taken, the first in order of name
when several have as many. A literal that fits none is a record of its own.
-/

namespace ModuleTyping

namespace TypeInfo

/-- The declared type applied to its parameters as they are bound. -/
def appliedWith (info : TypeInfo) (bindings : Bindings) : Ty :=
  info.applied.subst bindings

/-- Fits the fields of a literal to the declared ones, in order of declaration. -/
def fitFields (given : List (String × Ty)) :
    Bindings → List (String × Ty) → Option Bindings
  | bindings, [] => some bindings
  | bindings, (name, declared) :: rest =>
    match given.lookup name with
    | none => none
    | some actual =>
      match declared.fit bindings actual with
      | (true, bindings) => fitFields given bindings rest
      | (false, _) => none

/-- The declaration as a type for a literal with these fields, if they fit it. -/
def candidate? (info : TypeInfo) (given : List (String × Ty)) : Option Ty := do
  let declared ← info.ty.fields?
  if declared.length = given.length then
    let bindings ← fitFields given ∅ declared
    return info.appliedWith bindings
  else none

/-- Checks the fields of a literal against the declared ones, in order of declaration. A
field whose type does not fit may still be usable. -/
def checkFields (typeName : String) (given : List (String × Ty)) (origin : Origin) :
    Bindings → List (String × Ty) → Check Bindings
  | bindings, [] => pure bindings
  | bindings, (name, declared) :: rest =>
    match given.lookup name with
    | none => Check.fail (.missingField name typeName) origin
    | some actual =>
      match declared.fit bindings actual with
      | (true, bindings) => checkFields typeName given origin bindings rest
      | (false, bindings) => do
        let context := s!"field {Cause.quote name} of {Cause.quote typeName}"
        Check.compatible actual (declared.subst bindings) context origin
        checkFields typeName given origin bindings rest

end TypeInfo

/-- The more concrete of two candidates, the earlier one if they are equal in that. -/
def moreConcrete (best : Option Ty) (candidate : Ty) : Option Ty :=
  match best with
  | none => some candidate
  | some best => if best.concreteness < candidate.concreteness then some candidate else some best

namespace Environment

/-- The declared record that a literal with these fields fits best. -/
def bestCandidate? (env : Environment) (given : List (String × Ty)) : Option Ty :=
  (env.types.toList.filterMap fun entry => entry.value.candidate? given).foldl moreConcrete none

/-- The type of a literal of a named record. -/
def namedRecord (env : Environment) (name : String) (given : List (String × Ty))
    (origin : Origin) : Check Ty :=
  match env.types.info? name with
  | none => Check.fail (.unknownType name) origin
  | some info =>
    match info.ty.fields? with
    | none => Check.fail (.notRecord name) origin
    | some declared =>
      match given.find? fun field => (declared.lookup field.1).isNone with
      | some (extra, _) => Check.fail (.unknownField extra name) origin
      | none => do
        let bindings ← TypeInfo.checkFields name given origin ∅ declared
        return info.appliedWith bindings

/-- The type of a record literal with these fields. -/
def recordType (env : Environment) (name : Option String) (given : List (String × Ty))
    (origin : Origin) : Check Ty :=
  match name with
  | some name => env.namedRecord name given origin
  | none => pure ((env.bestCandidate? given).getD (.record "record" given))

end Environment

end ModuleTyping
