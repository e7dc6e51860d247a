import ModuleTyping.Event

/-!
# Configuration

What a pass checks and reports beyond what it must.
-/

namespace ModuleTyping

/-- The settings of a pass. -/
structure Config where
  /-- Reject matches on sums that leave variants uncovered. -/
  checkExhaustiveness : Bool := true
  /-- The least level of events that are delivered. -/
  eventLevel : Level := .debug
  /-- Work out the effect tags of functions. -/
  analyzeEffects : Bool := true
  deriving DecidableEq, Repr

/-- The settings, for inspection. -/
def Config.describe (config : Config) : String :=
  let word (b : Bool) := if b then "true" else "false"
  "SemaConfig \x7b check_exhaustiveness: " ++ word config.checkExhaustiveness ++
    ", event_level: " ++ config.eventLevel.title ++
    ", analyze_effects: " ++ word config.analyzeEffects ++ " \x7d"

end ModuleTyping
