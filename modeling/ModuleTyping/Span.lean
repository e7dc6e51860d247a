/-!
# Source ranges

A span is the range of source text that a declaration, expression or fault comes from.
Trees that were built rather than read have none.
-/

namespace ModuleTyping

/-- A range of source positions, from `start` up to `stop`. -/
structure Span where
  start : Nat
  stop : Nat
  deriving DecidableEq, Repr

/-- The place in the source something comes from, if it comes from one. -/
abbrev Origin := Option Span

end ModuleTyping
