import ResourceGraph.Number.Binary

/-!
Numbers of data: whole numbers of any size and 64-bit floats. They are compared exactly, across the
two kinds, and added from left to right: whole numbers exactly, and with rounding from the first
float on.
-/

namespace ResourceGraph

/-- A whole number of any size, or a float. -/
inductive Num
  | int (n : Int)
  | float (x : Float)
  deriving DecidableEq

namespace Num

open Number

/-- How two numbers compare; none when one of them is undefined. -/
def compare? : Num → Num → Option Ordering
  | int a, int b => some (compare a b)
  | int a, float y => (Binary.ofFloat y).compareInt? a
  | float x, int b => ((Binary.ofFloat x).compareInt? b).map Ordering.swap
  | float x, float y =>
    if x < y then some .lt else if x == y then some .eq else if y < x then some .gt else none

/-- The numbers are equal in value. -/
def same (a b : Num) : Bool := a.compare? b == some .eq

/-- The first number is below the second. -/
def below (a b : Num) : Bool := a.compare? b == some .lt

/-- The nearest float, unless the number is too large for one. -/
def toFloat? : Num → Option Float
  | int n => ofInt? n
  | float x => some x

/-- Adds floats from left to right, with whole numbers as their nearest floats between them. -/
def sumFloats? (total : Float) : List Num → Option Float
  | [] => some total
  | float x :: rest => sumFloats? (total + x) rest
  | int n :: rest =>
    match ofInt? n with
    | none => none
    | some x => sumFloats? (total + x) rest

/-- The sum of numbers, whole as long as all of them are; none when a whole number is too large to
be added to a float. -/
def sum? (total : Int) : List Num → Option Num
  | [] => some (int total)
  | int n :: rest => sum? (total + n) rest
  | float x :: rest =>
    match ofInt? total with
    | none => none
    | some t => (sumFloats? (t + x) rest).map float

/-- A number shared out into equal parts, as the nearest float, unless that is too large for one. -/
def share? (parts : Nat) : Num → Option Float
  | int n =>
    let x := nearest (n < 0) n.natAbs parts
    if x.isFinite then some x else none
  | float x => some (x / Float.ofNat parts)

end Num

end ResourceGraph
