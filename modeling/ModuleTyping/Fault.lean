import ModuleTyping.Span
import ModuleTyping.Ty.Text

/-!
# Faults

A program is rejected with a single fault: its cause, and the place in the source that
brought it about if that is known. The wording of every cause stands in one function,
`Cause.message`; the kind of a cause (`Cause.kind`) decides its code and how a report
labels it.
-/

namespace ModuleTyping

/-- The stages at which parts of a module are lowered. -/
inductive Stage where
  | typeDecl
  | function
  | expression
  | statement
  deriving DecidableEq, Repr

/-- All stages. -/
def Stage.all : List Stage :=
  [typeDecl, function, expression, statement]

/-- What is lowered at a stage, in words. -/
def Stage.words : Stage → String
  | typeDecl => "type declaration"
  | function => "function"
  | expression => "expression"
  | statement => "statement"

/-- The stage's name as it is shown for inspection. -/
def Stage.title : Stage → String
  | typeDecl => "TypeDecl"
  | function => "Function"
  | expression => "Expression"
  | statement => "Statement"

/-- The kinds of fault. -/
inductive FaultKind where
  /-- A name that nothing declares. -/
  | unknownIdentifier
  /-- A type name that nothing declares, or a text that is no type. -/
  | unknownType
  /-- A field or method that a type does not have. -/
  | unknownMember
  /-- The wrong number of arguments. -/
  | arityMismatch
  /-- A type where another one is wanted. -/
  | typeMismatch
  /-- A type variable that one call binds to two different types. -/
  | inconsistentBinding
  /-- A match that leaves variants uncovered. -/
  | nonExhaustiveMatch
  /-- A match without arms. -/
  | emptyMatch
  /-- An unknown constraint, or a type that does not meet one. -/
  | invalidConstraint
  /-- An operation on something it does not work on. -/
  | invalidOperand
  /-- A part of the module that no rule lowers. -/
  | noApplicableRule
  /-- An alias that cannot be made. -/
  | registry
  deriving DecidableEq, Repr

namespace FaultKind

/-- All kinds of fault. -/
def all : List FaultKind :=
  [unknownIdentifier, unknownType, unknownMember, arityMismatch, typeMismatch,
    inconsistentBinding, nonExhaustiveMatch, emptyMatch, invalidConstraint, invalidOperand,
    noApplicableRule, registry]

/-- The name of a kind of fault, for tools. -/
def title : FaultKind → String
  | unknownIdentifier => "UnknownIdentifier"
  | unknownType => "UnknownType"
  | unknownMember => "UnknownMember"
  | arityMismatch => "ArityMismatch"
  | typeMismatch => "TypeMismatch"
  | inconsistentBinding => "InconsistentBinding"
  | nonExhaustiveMatch => "NonExhaustiveMatch"
  | emptyMatch => "EmptyMatch"
  | invalidConstraint => "InvalidConstraint"
  | invalidOperand => "InvalidOperand"
  | noApplicableRule => "NoApplicableRule"
  | registry => "Registry"

/-- The stable code of a kind of fault. -/
def code : FaultKind → String
  | unknownIdentifier => "E0001"
  | unknownType => "E0002"
  | unknownMember => "E0003"
  | arityMismatch => "E0004"
  | typeMismatch => "E0005"
  | inconsistentBinding => "E0006"
  | nonExhaustiveMatch => "E0007"
  | emptyMatch => "E0008"
  | invalidConstraint => "E0009"
  | invalidOperand => "E0010"
  | noApplicableRule => "E0011"
  | registry => "E0012"

/-- Rejected uses and conflicting bindings are both errors in types to a user. -/
def isTypeError : FaultKind → Bool
  | typeMismatch => true
  | inconsistentBinding => true
  | _ => false

theorem code_injective {a b : FaultKind} (h : a.code = b.code) : a = b := by
  revert h
  cases a <;> cases b <;> decide

end FaultKind

/-- The receivers that have built-in methods to choose from. -/
inductive MethodFamily where
  | array
  | string
  deriving DecidableEq, Repr

namespace MethodFamily

/-- The family's name in messages. -/
def word : MethodFamily → String
  | array => "array"
  | string => "string"

/-- The methods of the family, in the order messages list them. -/
def methods : MethodFamily → List String
  | array => ["length", "size", "is_empty", "map", "filter", "fold"]
  | string => ["split", "trim", "trim_start", "trim_end", "upper", "lower", "is_empty", "length"]

end MethodFamily

/-- Why an alias cannot be made. -/
inductive AliasError where
  /-- The name it should stand for is not registered. -/
  | unknownTarget (aliasName target : String)
  /-- The alias is the name of a registered symbol itself. -/
  | nameTaken (aliasName : String)
  deriving DecidableEq, Repr

/-- What takes arguments, where their number is wrong. -/
inductive Applied where
  | function (name : String)
  | method (name : String)
  | lambda
  | constructor (name : String)
  | type (name : String)
  deriving DecidableEq, Repr

/-- Why a program is rejected. -/
inductive Cause where
  | unknownIdentifier (name : String) (visible : List String)
  | notExported (moduleName item : String)
  | unknownConstructor (name : String)
  | unknownType (name : String)
  | malformedType (text : String)
  | unknownMember (member : String) (object : Ty)
  | unknownField (field typeText : String)
  | missingField (field typeName : String)
  | unknownMethod (family : MethodFamily) (method : String)
  | arity (applied : Applied) (expected found : Nat)
  | typeMismatch (context expected actual : String)
  | inconsistentBinding (varName : String) (first second : Ty)
  | uncoveredVariants (names : List String)
  | emptyMatch
  | unknownConstraint (name : String)
  | unsatisfiedConstraint (ty : Ty) (constraint param : String) (declaration : Option String)
  | cannotAdd (lhs rhs : Ty)
  | cannotCall (ty : Ty)
  | cannotIndex (ty : Ty)
  | cannotIterate (ty : Ty)
  | mixedNumbers (lhs rhs : Ty)
  | notRecord (typeName : String)
  | noRule (stage : Stage)
  | wrongProduct (wanted : Stage)
  | wrongNode (rule : String)
  | badAlias (error : AliasError)
  /-- A cause that a rule from outside gives in its own words. -/
  | reported (kind : FaultKind) (text : String)

namespace Cause

/-- The kind of fault a cause leads to. -/
def kind : Cause → FaultKind
  | unknownIdentifier _ _ => .unknownIdentifier
  | notExported _ _ => .unknownIdentifier
  | unknownConstructor _ => .unknownIdentifier
  | unknownType _ => .unknownType
  | malformedType _ => .unknownType
  | unknownMember _ _ => .unknownMember
  | unknownField _ _ => .unknownMember
  | missingField _ _ => .unknownMember
  | unknownMethod _ _ => .unknownMember
  | arity _ _ _ => .arityMismatch
  | typeMismatch _ _ _ => .typeMismatch
  | inconsistentBinding _ _ _ => .inconsistentBinding
  | uncoveredVariants _ => .nonExhaustiveMatch
  | emptyMatch => .emptyMatch
  | unknownConstraint _ => .invalidConstraint
  | unsatisfiedConstraint _ _ _ _ => .invalidConstraint
  | cannotAdd _ _ => .invalidOperand
  | cannotCall _ => .invalidOperand
  | cannotIndex _ => .invalidOperand
  | cannotIterate _ => .invalidOperand
  | mixedNumbers _ _ => .invalidOperand
  | notRecord _ => .invalidOperand
  | noRule _ => .noApplicableRule
  | wrongProduct _ => .noApplicableRule
  | wrongNode _ => .noApplicableRule
  | badAlias _ => .registry
  | reported kind _ => kind

/-- A name between single quotes. -/
def quote (name : String) : String :=
  "'" ++ name ++ "'"

/-- The names that are in scope, as the message for an unknown name lists them. -/
def scopeText : List String → String
  | [] => "<empty>"
  | names => ", ".intercalate names

/-- The wording of a wrong number of arguments. -/
def arityText (applied : Applied) (expected found : Nat) : String :=
  match applied with
  | .function name => s!"Function {quote name} expects {expected} argument(s), got {found}"
  | .method name => s!"Method {quote name} expects {expected} argument(s), got {found}"
  | .lambda => s!"Lambda expects {expected} argument(s), got {found}"
  | .constructor name => s!"Constructor {quote name} expects {expected} field(s), got {found}"
  | .type name => s!"Type {quote name} expects {expected} type argument(s), got {found}"

/-- The wording of an alias that cannot be made. -/
def aliasText : AliasError → String
  | .unknownTarget aliasName target =>
    s!"Cannot alias {quote aliasName} to unknown symbol {quote target}"
  | .nameTaken aliasName => s!"Alias {quote aliasName} collides with a registered name"

/-- What a user reads about a cause. -/
def message : Cause → String
  | unknownIdentifier name visible =>
    s!"Unknown identifier {quote name} (in scope: {scopeText visible})"
  | notExported moduleName item => s!"Module {quote moduleName} does not export {quote item}"
  | unknownConstructor name => s!"Unknown constructor {quote name}"
  | unknownType name => s!"Unknown type {quote name}"
  | malformedType text => s!"Malformed type {quote text} in module metadata"
  | unknownMember member object => s!"Unknown member {quote member} for type {object.text}"
  | unknownField field typeText => s!"Unknown field {quote field} for type {typeText}"
  | missingField field typeName => s!"Missing field {quote field} for type {typeName}"
  | unknownMethod family method =>
    let known := ", ".intercalate family.methods
    s!"Unknown {family.word} method {quote method}. Supported methods: {known}"
  | arity applied expected found => arityText applied expected found
  | typeMismatch context expected actual => s!"{context} expected {expected}, got {actual}"
  | inconsistentBinding name first second =>
    s!"Type variable {name} bound to both {first.text} and {second.text}"
  | uncoveredVariants names =>
    let missing := ", ".intercalate names
    s!"Non-exhaustive match: missing variant(s) {missing}"
  | emptyMatch => "Match expression must have at least one arm"
  | unknownConstraint name => s!"Unknown constraint {quote name}"
  | unsatisfiedConstraint ty constraint param declaration =>
    let base :=
      s!"Type {quote ty.text} does not satisfy constraint {quote constraint} for {quote param}"
    match declaration with
    | none => base
    | some declaration => s!"{base} in {quote declaration}"
  | cannotAdd lhs rhs => s!"Cannot add {lhs.text} and {rhs.text}"
  | cannotCall ty => s!"Cannot call a value of type {ty.text}"
  | cannotIndex ty => s!"Cannot index into a value of type {ty.text}"
  | cannotIterate ty => s!"Cannot iterate over a value of type {ty.text}"
  | mixedNumbers lhs rhs =>
    s!"Numeric operands must have matching types, got {lhs.text} and {rhs.text}"
  | notRecord typeName => s!"Type {typeName} is not a record"
  | noRule stage => s!"No rule applies to this {stage.words}"
  | wrongProduct wanted => s!"Rule did not produce a {wanted.words}"
  | wrongNode rule => s!"Rule {quote rule} cannot lower this node"
  | badAlias error => aliasText error
  | reported _ text => text

end Cause

/-- A fault: its cause and where in the source it arose. -/
structure Fault where
  cause : Cause
  origin : Origin := none

namespace Fault

/-- The kind of the fault. -/
def kind (fault : Fault) : FaultKind := fault.cause.kind

/-- What a user reads about the fault. -/
def message (fault : Fault) : String := fault.cause.message

/-- Notes where the fault arose, unless a closer place is known already. -/
def placed (fault : Fault) (origin : Origin) : Fault :=
  { fault with origin := fault.origin <|> origin }

/-- The fault is an error in types. -/
def isTypeError (fault : Fault) : Bool := fault.kind.isTypeError

end Fault

end ModuleTyping
