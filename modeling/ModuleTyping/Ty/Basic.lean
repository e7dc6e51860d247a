/-!
# Types

A type is a named scalar, a shape built from other types, or a variable that a generic
declaration leaves open. Declared records and sums carry their fields and variants, so
a type can be taken apart without a table of declarations at hand.

Two types are the same (`Ty.same`) when their shapes agree and their names agree: a
declared type is known by its name, not by what it holds, and a variable is known by
its name, not by its constraint. `Ty.equivalent` is coarser still and looks only at
names, array elements and type arguments.
-/

namespace ModuleTyping

/-- The types of programs. -/
inductive Ty where
  /-- A scalar, or any type that is known by its name alone. -/
  | primitive (name : String)
  | array (element : Ty)
  | function (params : List Ty) (result : Ty)
  /-- A type applied to type arguments. -/
  | generic (base : Ty) (args : List Ty)
  /-- A type variable and the constraint it was declared with. -/
  | var (name : String) (constraint : Option String)
  | record (name : String) (fields : List (String × Ty))
  /-- A sum of named variants, each with the types of its positional fields. -/
  | sum (name : String) (variants : List (String × List Ty))
  | ref (referent : Ty)
  | mutRef (referent : Ty)
  | map (key value : Ty)
  /-- A declared type whose contents are hidden. -/
  | abstract (name : String)
  | unit

/-- A type parameter of a declaration, with its constraint if it has one. -/
structure TypeParam where
  name : String
  constraint : Option String := none
  deriving DecidableEq, Repr

namespace Ty

instance : Inhabited Ty := ⟨unit⟩

/-- The type of whole numbers without a suffix. -/
def i32 : Ty := primitive "i32"

/-- The type of fractions without a suffix. -/
def f32 : Ty := primitive "f32"

/-- The wider type of fractions. -/
def f64 : Ty := primitive "f64"

/-- The type of truth values. -/
def bool : Ty := primitive "bool"

/-- The type of texts. -/
def string : Ty := primitive "string"

/-- The type of expressions that yield nothing. -/
def void : Ty := primitive "void"

/-- The stand-in for a type that is not determined yet. -/
def auto : Ty := primitive "auto"

/-- The type is the stand-in for one that is not determined yet. -/
def isAuto : Ty → Bool
  | primitive name => name == "auto"
  | _ => false

/-- The type is a variable. -/
def isVar : Ty → Bool
  | var _ _ => true
  | _ => false

/-- The type is that of a function. -/
def isFunction : Ty → Bool
  | function _ _ => true
  | _ => false

/-- The name a type is compared and looked up by. A generic application has the name of
its base, and a shape without a name of its own has a word for the shape. -/
def name : Ty → String
  | primitive name => name
  | abstract name => name
  | record name _ => name
  | sum name _ => name
  | var name _ => name
  | generic base _ => base.name
  | array _ => "array"
  | function _ _ => "function"
  | ref _ => "ref"
  | mutRef _ => "mut_ref"
  | map _ _ => "map"
  | unit => "unit"

/-- The element type of an array. -/
def element? : Ty → Option Ty
  | array element => some element
  | _ => none

/-- The parameter types of a function type. -/
def params : Ty → List Ty
  | function params _ => params
  | _ => []

/-- The type arguments of a generic application. -/
def args : Ty → List Ty
  | generic _ args => args
  | _ => []

/-- The type under one generic application. -/
def base : Ty → Ty
  | generic base _ => base
  | ty => ty

/-- The declared fields of a record, applied or not. -/
def fields? (ty : Ty) : Option (List (String × Ty)) :=
  match ty.base with
  | record _ fields => some fields
  | _ => none

/-- The declared variants of a sum, applied or not. -/
def variants? (ty : Ty) : Option (List (String × List Ty)) :=
  match ty.base with
  | sum _ variants => some variants
  | _ => none

mutual

/-- A variable occurs in the type. The base of a generic application is not looked at:
its declaration's own variables are not open in the application. -/
def hasVars : Ty → Bool
  | var _ _ => true
  | array element => element.hasVars
  | ref referent => referent.hasVars
  | mutRef referent => referent.hasVars
  | function params result => hasVarsAny params || result.hasVars
  | generic _ args => hasVarsAny args
  | map key value => key.hasVars || value.hasVars
  | record _ fields => hasVarsFields fields
  | sum _ variants => hasVarsVariants variants
  | primitive _ => false
  | abstract _ => false
  | unit => false

/-- A variable occurs in one of the types. -/
def hasVarsAny : List Ty → Bool
  | [] => false
  | ty :: rest => ty.hasVars || hasVarsAny rest

/-- A variable occurs in the type of one of the fields. -/
def hasVarsFields : List (String × Ty) → Bool
  | [] => false
  | (_, ty) :: rest => ty.hasVars || hasVarsFields rest

/-- A variable occurs in a field of one of the variants. -/
def hasVarsVariants : List (String × List Ty) → Bool
  | [] => false
  | (_, tys) :: rest => hasVarsAny tys || hasVarsVariants rest

end

/-- How many type arguments are free of variables. -/
def concreteness (ty : Ty) : Nat :=
  ty.args.countP fun arg => !arg.hasVars

mutual

/-- The two types have the same shape and the same names. -/
def same : Ty → Ty → Bool
  | primitive a, primitive b => a == b
  | abstract a, abstract b => a == b
  | record a _, record b _ => a == b
  | sum a _, sum b _ => a == b
  | var a _, var b _ => a == b
  | array a, array b => a.same b
  | ref a, ref b => a.same b
  | mutRef a, mutRef b => a.same b
  | function ps r, function qs s => sameAll ps qs && r.same s
  | generic a as, generic b bs => a.name == b.name && sameAll as bs
  | map k v, map l w => k.same l && v.same w
  | unit, unit => true
  | _, _ => false

/-- The two lists have the same length and the same types in each place. -/
def sameAll : List Ty → List Ty → Bool
  | [], [] => true
  | a :: as, b :: bs => a.same b && sameAll as bs
  | _, _ => false

end

end Ty

/-- The type variable that a parameter introduces. -/
def TypeParam.toVar (param : TypeParam) : Ty :=
  .var param.name param.constraint

/-- The signature of a function or constructor. -/
structure Signature where
  name : String
  params : List Ty
  result : Ty
  typeParams : List TypeParam := []

namespace Signature

/-- The signature leaves type parameters open. -/
def isGeneric (sig : Signature) : Bool :=
  !sig.typeParams.isEmpty

/-- The type of the function as a value. -/
def toTy (sig : Signature) : Ty :=
  .function sig.params sig.result

end Signature

/-- A declared type: its name, what it stands for and its type parameters. -/
structure TypeInfo where
  name : String
  ty : Ty
  typeParams : List TypeParam := []

namespace TypeInfo

/-- The declared type applied to its own parameters; without parameters, as it is. -/
def applied (info : TypeInfo) : Ty :=
  if info.typeParams.isEmpty then info.ty
  else .generic info.ty (info.typeParams.map TypeParam.toVar)

end TypeInfo

end ModuleTyping
