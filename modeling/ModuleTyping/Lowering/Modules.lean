import ModuleTyping.Lowering.Declarations

/-!
# Lowering modules

A module is lowered in steps: its imports are made known, then all its types by name, so
that they may refer to each other, then what the types stand for, then the signatures of
all its functions, and then their bodies. The lowered items come in the order of the
source, whatever the order of the steps.
-/

namespace ModuleTyping

namespace Source

/-- The types a module declares, in order. -/
def Module.types (m : Module) : List TypeDecl :=
  m.items.filterMap fun
    | .type decl => some decl
    | .function _ => none

/-- The functions a module declares, in order. -/
def Module.functions (m : Module) : List Function :=
  m.items.filterMap fun
    | .function decl => some decl
    | .type _ => none

end Source

/-- Puts lowered types and functions in the order of the items they come from. -/
def weave : List Source.Item → List Typed.TypeDecl → List Typed.Function → List Typed.Item
  | .type _ :: items, decl :: types, functions => .type decl :: weave items types functions
  | .function _ :: items, types, decl :: functions => .function decl :: weave items types functions
  | _, _, _ => []

namespace Lower

/-- Loads the summary of an imported module, the first time it is imported. -/
def loadImport (imported : Source.Import) : Lower Unit := do
  let state ← get
  unless imported.moduleName ∈ state.loaded do
    match (← read).source.bind (· imported.moduleName) with
    | none => pure ()
    | some summary =>
      let (result, env) := (summary.load).run state.env
      modifyEnv fun _ => env
      ofExcept result imported.origin
    modify fun state => { state with loaded := imported.moduleName :: state.loaded }

/-- The functions that an import names, of those the module exports. A name may also be
that of an exported type, which needs no import. -/
def selectImports (imported : Source.Import) (functions types : List String) :
    List String → Lower (List String)
  | [] => return []
  | item :: items => do
    if item ∈ functions then
      return item :: (← selectImports imported functions types items)
    else if item ∈ types then
      selectImports imported functions types items
    else fail (.notExported imported.moduleName item) imported.origin

/-- Makes an alias of a function. -/
def registerAlias (origin : Origin) (name key : String) : Lower Unit := do
  match (← env).functions.registerAlias key name with
  | .ok functions => modifyEnv fun env => { env with functions }
  | .error error => fail (.badAlias error) origin

/-- Makes the functions of an imported module known under the names they are reached by. A
module about which nothing is known imports nothing. -/
def processImport (imported : Source.Import) : Lower Unit := do
  loadImport imported
  let env ← env
  let functions :=
    ((env.functions.inModule imported.moduleName).filter (·.exported)).map Entry.name
  let types := (env.types.inModule imported.moduleName true).map Entry.name
  unless functions.isEmpty && types.isEmpty do
    let names ←
      if imported.items.isEmpty then pure functions
      else selectImports imported functions types imported.items
    let shortName := ModulePath.shortName imported.moduleName
    names.forM fun name =>
      (ModulePath.qualifiedAliases name shortName imported.importedAs).forM
        (registerAlias imported.origin name)

/-- Makes a declared type known by its name, before what it stands for is worked out. -/
def registerPlaceholder (decl : Source.TypeDecl) : Lower Unit := do
  let reg ← registration decl.exported false decl.origin
  let info : TypeInfo := {
    name := decl.name
    ty := .abstract decl.name
    typeParams := decl.typeParams }
  modifyEnv fun env => { env with types := env.types.register info reg }

/-- Enters a module. -/
def enterModule (name : String) : Lower Unit :=
  modify fun state =>
    { state with
      moduleName := name
      namespaceName := ModulePath.deriveNamespace (some name) }

/-- Lowers a module. -/
def lowerModule (m : Source.Module) : Lower Typed.Module := do
  enterModule m.name
  m.imports.forM processImport
  m.types.forM registerPlaceholder
  let types ← m.types.mapM lowerTypeDecl
  m.functions.forM fun decl => discard (declareFunction decl)
  let functions ← m.functions.mapM lowerFunction
  return {
    name := m.name
    namespaceName := (← get).namespaceName
    items := weave m.items types functions }

end Lower

/-- Lowers a module with the standard rules and nothing imported, and gives it together with
its summary. -/
def compileModule (config : Config) (m : Source.Module) : Except Fault (Typed.Module × Summary) :=
  ((Lower.lowerModule m).run { config } {}).1.map fun lowered =>
    (lowered, Summary.ofModule lowered)

end ModuleTyping
