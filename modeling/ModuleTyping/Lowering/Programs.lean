import ModuleTyping.Lowering.Modules
import ModuleTyping.Summary.Json

/-!
# Lowering programs

The modules of a program are lowered one after another, each in a pass of its own. A module
sees the others only through the summaries that those before it have left, as they read
after they have been written out.
-/

namespace ModuleTyping

/-- The summary of a module among several. Of two for one module the later one counts. -/
def Summary.latest? (summaries : List Summary) (moduleName : String) : Option Summary :=
  summaries.foldl
    (fun found summary => if summary.moduleName = moduleName then some summary else found) none

/-- How the pass over one module ended. -/
structure PassResult where
  result : Except Fault Typed.Module
  state : LowerState

/-- Lowers a module that may import those that left summaries. -/
def lowerAfter (config : Config) (summaries : List Summary) (m : Source.Module) : PassResult :=
  let context : Context := { config, source := some (Summary.latest? summaries) }
  let (result, state) := (Lower.lowerModule m).run context {}
  { result, state }

/-- The summary that a pass leaves for later ones, if it ended well. -/
def PassResult.summary? (pass : PassResult) : Option Summary :=
  match pass.result with
  | .ok lowered => Summary.ofJson? (Summary.ofModule lowered).toJson
  | .error _ => none

/-- Lowers the modules of a program in order. -/
def lowerProgram (config : Config) (summaries : List Summary) :
    List Source.Module → List PassResult
  | [] => []
  | m :: rest =>
    let pass := lowerAfter config summaries m
    pass :: lowerProgram config (summaries ++ pass.summary?.toList) rest

end ModuleTyping
