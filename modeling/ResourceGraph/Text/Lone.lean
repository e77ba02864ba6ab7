/-!
Lone code units. Escapes write characters beyond the first plane as two code units, and a text can
hold one of the two without the other. Such a unit is no character; it is kept as a character of a
private plane, which stands for nothing else.
-/

namespace ResourceGraph.Text

/-- The number of a lone code unit's character, less the unit. -/
def loneOffset : Nat := 0xf0000

/-- A unit is one of a pair. -/
def isHalf (unit : Nat) : Bool := 0xd800 ≤ unit && unit < 0xe000

/-- The character that a lone code unit is kept as. -/
def ofLone (unit : Nat) : Char := Char.ofNat (loneOffset + unit)

/-- The lone code unit that a character is kept for. -/
def lone? (c : Char) : Option Nat :=
  let unit := c.toNat - loneOffset
  if isHalf unit then some unit else none

end ResourceGraph.Text
