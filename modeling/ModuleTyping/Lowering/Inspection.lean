import ModuleTyping.Lowering.Basic

/-!
# Looking at a pass

The text in which tools show where a pass stands.
-/

namespace ModuleTyping.LowerState

/-- The state of a pass, with how much it has registered, its settings and its rules. -/
def describe (state : LowerState) (context : Context) : String :=
  let namespaceName :=
    match state.namespaceName with
    | none => "None"
    | some name => "Some(" ++ Text.quoted name ++ ")"
  "Lowering \x7b module_name: " ++ Text.quoted state.moduleName ++
    ", namespace: " ++ namespaceName ++
    ", types: " ++ toString state.env.types.table.size ++
    ", functions: " ++ toString state.env.functions.table.size ++
    ", scope_depth: " ++ toString state.env.scopes.depth ++
    ", config: " ++ context.config.describe ++
    ", engine: " ++ context.engine.describe ++
    ", has_metadata_source: " ++ (if context.source.isSome then "true" else "false") ++ " \x7d"

end ModuleTyping.LowerState
