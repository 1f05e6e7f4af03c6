/-!
Classes of characters given as closed ranges of code points in ascending order.

`mem` stops at the first range that starts above the character, so a sorted table is searched
only as far as it has to be.
-/

namespace SearchCompiler.Text

/-- Closed ranges of code points, lowest first. -/
abbrev Ranges := List (Nat × Nat)

def Ranges.mem : Ranges → Nat → Bool
  | [], _ => false
  | (low, high) :: rest, n => if n < low then false else n ≤ high || Ranges.mem rest n

end SearchCompiler.Text
