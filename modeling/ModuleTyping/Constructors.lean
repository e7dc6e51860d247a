import ModuleTyping.SymbolTable.Functions
import ModuleTyping.Unification.Soft

/-!
# Constructors

Every variant of a sum type is a function from its fields to the sum. The constructor
table keeps, beside the table of functions, which names are constructors and of which
sum, so that patterns can be told from variables and matches can be checked.
-/

namespace ModuleTyping

/-- A constructor: the sum it belongs to and its signature. -/
structure Constructor where
  sumName : String
  signature : Signature

/-- Constructors by name, and the variant names of each sum in order of declaration. -/
structure ConstructorTable where
  byName : Dict Constructor := ∅
  bySum : Dict (List String) := ∅

namespace ConstructorTable

/-- The table without constructors. -/
def empty : ConstructorTable := {}

instance : EmptyCollection ConstructorTable := ⟨empty⟩

instance : Inhabited ConstructorTable := ⟨empty⟩

/-- The constructor of that name. -/
def get? (constructors : ConstructorTable) (name : String) : Option Constructor :=
  constructors.byName.get? name

/-- The name is that of a constructor. -/
def contains (constructors : ConstructorTable) (name : String) : Bool :=
  constructors.byName.contains name

/-- The name is that of a constructor without fields. -/
def isNullary (constructors : ConstructorTable) (name : String) : Bool :=
  match constructors.get? name with
  | some constructor => constructor.signature.params.isEmpty
  | none => false

/-- The variant names of a sum, in order of declaration. -/
def variantsOf (constructors : ConstructorTable) (sumName : String) : List String :=
  (constructors.bySum.get? sumName).getD []

/-- The signature of a constructor as it reads for values of type `scrutinee`. -/
def signatureFor? (constructors : ConstructorTable) (name : String) (scrutinee : Ty) :
    Option Signature :=
  (constructors.get? name).map (·.signature.specialize scrutinee)

/-- Drops the constructors that an earlier declaration of the sum left behind. -/
def forgetSum (constructors : ConstructorTable) (functions : FunctionTable) (sumName : String) :
    ConstructorTable × FunctionTable :=
  let old := constructors.variantsOf sumName
  ({ byName := old.foldl Dict.erase constructors.byName
     bySum := constructors.bySum.erase sumName },
    old.foldl (fun functions variant => (functions.delete variant).2) functions)

/-- The signature of a variant's constructor. -/
def signatureOf (info : TypeInfo) (variant : String × List Ty) : Signature where
  name := variant.1
  params := variant.2
  result := info.applied
  typeParams := info.typeParams

/-- Adds one constructor of a sum, as a constructor and as a function. -/
def addConstructor (sumName : String) (reg : Registration)
    (tables : ConstructorTable × FunctionTable) (sig : Signature) :
    ConstructorTable × FunctionTable :=
  let (constructors, functions) := tables
  ({ byName := constructors.byName.insert sig.name { sumName, signature := sig }
     bySum := constructors.bySum.insert sumName (constructors.variantsOf sumName ++ [sig.name]) },
    functions.register sig reg)

/-- Registers the constructors of a declared sum in place of those of an earlier
declaration, and gives their signatures in order of declaration. A declaration that is no
sum has none and changes nothing. -/
def registerSum (constructors : ConstructorTable) (functions : FunctionTable) (info : TypeInfo)
    (reg : Registration) : List Signature × ConstructorTable × FunctionTable :=
  match info.ty.variants? with
  | none => ([], constructors, functions)
  | some variants =>
    let signatures := variants.map (signatureOf info)
    (signatures,
      signatures.foldl (addConstructor info.name reg)
        (constructors.forgetSum functions info.name))

end ConstructorTable

end ModuleTyping
