/-!
Sets of code points, written as inclusive ranges. The character classes of this library are such
sets beyond ASCII; within ASCII each class says its rule directly, so that a proof about plain names
never meets a table.
-/

namespace ResourceGraph.Text

/-- Inclusive ranges of code points, in ascending order. -/
abbrev Ranges := List (Nat × Nat)

/-- Membership of a code point in a set of ranges. -/
def Ranges.contains (ranges : Ranges) (code : Nat) : Bool :=
  ranges.any fun (low, high) => low ≤ code && code ≤ high

end ResourceGraph.Text
