/-!
# Tables of code points

Character classes are given as tables: closed intervals of code points, or runs
that take every `step`-th code point, which is how the scripts with alternating
capital and small letters are laid out.
-/

namespace ModuleTyping.Text

/-- The code point of `c` lies in one of the closed intervals. -/
def inIntervals (table : List (Nat × Nat)) (c : Char) : Bool :=
  table.any fun (first, last) => first ≤ c.toNat && c.toNat ≤ last

/-- The code point `n` is one of `first, first + step, …, last`. -/
def inRun (first last step n : Nat) : Bool :=
  first ≤ n && n ≤ last && (n - first) % step == 0

end ModuleTyping.Text
