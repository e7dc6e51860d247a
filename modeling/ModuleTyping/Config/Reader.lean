import ModuleTyping.Config.Basic
import ModuleTyping.Toml.Reader

/-!
# Reading the configuration

The settings stand in the table `sema` of a TOML document, whose other contents are passed
over. A setting that is left out has its usual value; a name that is no setting is refused.
-/

namespace ModuleTyping.Config

/-- A truth value. -/
def readBool : Toml → Option Bool
  | .bool value => some value
  | _ => none

/-- A value with nothing in it. -/
def isEmpty : Toml → Bool
  | .array elements => elements.isEmpty
  | .table _ members => members.isEmpty
  | _ => false

/-- A level: its word as a text, or as the only name in a table, with nothing in it. -/
def readLevel : Toml → Option Level
  | .text word => Level.ofWord? word
  | .table _ [(word, value)] => if isEmpty value then Level.ofWord? word else none
  | _ => none

/-- One setting, by its name. -/
def set (config : Config) (setting : String × Toml) : Option Config :=
  match setting with
  | ("check_exhaustiveness", value) =>
    (readBool value).map fun value => { config with checkExhaustiveness := value }
  | ("event_level", value) => (readLevel value).map fun level => { config with eventLevel := level }
  | ("analyze_effects", value) =>
    (readBool value).map fun value => { config with analyzeEffects := value }
  | _ => none

/-- The names of the settings, in the order in which an array lists them. -/
def settings : List String :=
  ["check_exhaustiveness", "event_level", "analyze_effects"]

/-- The settings in a value: a table by name, or an array that lists them in order. -/
def ofToml? : Toml → Option Config
  | .table _ members => members.foldlM set {}
  | .array elements => (settings.zip elements).foldlM set {}
  | _ => none

/-- The settings in a document, or the usual ones if it has none. -/
def read? (text : String) : Option Config := do
  match (← Toml.read? text).lookup "sema" with
  | none => some {}
  | some value => ofToml? value

/-- What is said of a text that holds no settings. -/
def unreadable : String := "Failed to parse sema config"

end ModuleTyping.Config
