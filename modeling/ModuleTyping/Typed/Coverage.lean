import ModuleTyping.Dict
import ModuleTyping.SymbolTable.Types
import ModuleTyping.Typed.Basic

/-!
# Coverage of matches

A match on a sum must have an arm for every variant, or an arm that takes anything. Only
the outermost shape of a pattern counts, seen through its alternatives: what a
constructor's fields are matched against plays no part.
-/

namespace ModuleTyping.Typed

namespace Pattern

mutual

/-- The pattern takes every value. -/
def isCatchAll : Pattern → Bool
  | wildcard => true
  | bind _ _ => true
  | or alternatives => anyCatchAll alternatives
  | literal _ => false
  | constructor _ _ _ => false

/-- One of the patterns takes every value. -/
def anyCatchAll : List Pattern → Bool
  | [] => false
  | p :: rest => p.isCatchAll || anyCatchAll rest

end

mutual

/-- The constructors a pattern takes, in the order it names them. -/
def covered : Pattern → List String
  | constructor name _ _ => [name]
  | or alternatives => coveredAll alternatives
  | wildcard => []
  | bind _ _ => []
  | literal _ => []

/-- The constructors that the patterns take, in the order they name them. -/
def coveredAll : List Pattern → List String
  | [] => []
  | p :: rest => p.covered ++ coveredAll rest

end

end Pattern

/-- The variants that a scrutinee can be one of: those of the sum registered under the
name of its type, or else its own. -/
def variantsFor? (types : TypeTable) (scrutinee : Ty) : Option (List (String × List Ty)) :=
  ((types.lookup? scrutinee.name).bind Ty.variants?) <|> scrutinee.variants?

/-- The names of the variants that no arm takes, in ascending order. -/
def uncovered (types : TypeTable) (scrutinee : Ty) (arms : List Pattern) : List String :=
  match variantsFor? types scrutinee with
  | none => []
  | some variants =>
    if arms.any Pattern.isCatchAll then []
    else
      let taken := Pattern.coveredAll arms
      let missing := (variants.map Prod.fst).filter (!taken.contains ·)
      (Dict.ofList (missing.map (·, ()))).keys

end ModuleTyping.Typed
