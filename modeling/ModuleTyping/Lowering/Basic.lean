import ModuleTyping.Config.Basic
import ModuleTyping.Inference.Calls
import ModuleTyping.Rule
import ModuleTyping.Summary.Load

/-!
# The state of a pass

Lowering runs over a state that outlives faults: what was registered or bound before a
fault stays, except that the scopes, type parameters and result types entered on the way
are left again. Settings, rules and the summaries of other modules are fixed for a pass.
-/

namespace ModuleTyping

/-- What is fixed for a pass. -/
structure Context where
  config : Config := {}
  engine : Engine := .standard
  /-- The summary of a module, if one is known; without a source none is. -/
  source : Option (String → Option Summary) := none

/-- What changes during a pass. -/
structure LowerState where
  env : Environment := {}
  moduleName : String := ""
  namespaceName : Option String := none
  /-- The type parameters in scope, innermost first. -/
  typeParams : List TypeParam := []
  /-- The result types of the functions and lambdas around, innermost first. -/
  results : List Ty := []
  /-- The modules whose summaries have been looked for. -/
  loaded : List String := []
  /-- The mismatches announced so far, in order. -/
  announced : List Mismatch := []

instance : Inhabited LowerState := ⟨{}⟩

/-- Lowering: a computation over the state of a pass that may end with a fault. -/
abbrev Lower := ReaderT Context (ExceptT Fault (StateM LowerState))

namespace Lower

variable {α : Type}

/-- Runs a lowering from a state, and gives the state it leaves also when it fails. -/
def run (x : Lower α) (context : Context) (state : LowerState) : Except Fault α × LowerState :=
  x context state

/-- Runs a check; what it announces is kept. -/
def check (x : Check α) : Lower α :=
  fun _ state =>
    let (result, announced) := x state.announced
    (result, { state with announced })

/-- Ends with a fault. -/
def fail (cause : Cause) (origin : Origin) : Lower α :=
  throw { cause, origin }

/-- Takes a result that is there already; a cause becomes a fault at the given place. -/
def ofExcept (result : Except Cause α) (origin : Origin) : Lower α :=
  match result with
  | .ok value => pure value
  | .error cause => fail cause origin

/-- Notes the place of a fault that has none yet. -/
def placed (origin : Origin) (x : Lower α) : Lower α :=
  fun context state =>
    match x context state with
    | (.ok value, state) => (.ok value, state)
    | (.error fault, state) => (.error (fault.placed origin), state)

/-- Runs `x` between a change of the state and a change back, which is made also after a
fault. -/
def between (enter leave : LowerState → LowerState) (x : Lower α) : Lower α :=
  fun context state =>
    let (result, state) := x context (enter state)
    (result, leave state)

/-- What is known at this point. -/
def env : Lower Environment := do
  return (← get).env

/-- Changes what is known. -/
def modifyEnv (f : Environment → Environment) : Lower Unit :=
  modify fun state => { state with env := f state.env }

/-- Gives a name a type in the innermost scope. -/
def bind (name : String) (ty : Ty) : Lower Unit :=
  modifyEnv fun env => { env with scopes := env.scopes.bind name ty }

/-- Runs in a scope of its own. -/
def inScope (x : Lower α) : Lower α :=
  between
    (fun state => { state with env := { state.env with scopes := state.env.scopes.push } })
    (fun state => { state with env := { state.env with scopes := state.env.scopes.pop } })
    x

/-- Runs with type parameters in scope. -/
def withTypeParams (params : List TypeParam) (x : Lower α) : Lower α :=
  between
    (fun state => { state with typeParams := params.reverse ++ state.typeParams })
    (fun state => { state with typeParams := state.typeParams.drop params.length })
    x

/-- Runs as the body of a function or lambda with this result type. -/
def withResult (result : Ty) (x : Lower α) : Lower α :=
  between
    (fun state => { state with results := result :: state.results })
    (fun state => { state with results := state.results.drop 1 })
    x

/-- How a declaration of the current module is registered. -/
def registration (exported external : Bool) (origin : Origin) : Lower Registration := do
  let state ← get
  return {
    moduleName := some state.moduleName
    givenNamespace := state.namespaceName
    exported
    external
    origin }

/-- Offers a part to the rules of its stage. The first rule that accepts it either lowers
it, by `lower` for the shape the rule lowers it as, or gives a product that `take` must be
able to use. -/
def dispatch (stage : Stage) (node : Node) (lower : Shape → Lower α) (take : Product → Option α) :
    Lower α := do
  match (← read).engine.choose? stage node with
  | none => fail (.noRule stage) node.origin
  | some rule =>
    match rule.action with
    | .lowerAs shape =>
      if node.fits shape then placed node.origin (lower shape)
      else fail (.wrongNode shape.ruleName) node.origin
    | .give produce =>
      match produce node with
      | .error cause => fail cause node.origin
      | .ok product =>
        match take product with
        | some value => pure value
        | none => fail (.wrongProduct stage) none

end Lower

end ModuleTyping
