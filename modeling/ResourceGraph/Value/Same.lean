import ResourceGraph.Value.Basic

/-!
Equality of scalars, and of the keys of objects. Whole numbers equal floats of the same value, and
truth values count as zero and one. The undefined number equals nothing, itself included; as a key,
or inside a container, it is still found as the one thing it is.
-/

namespace ResourceGraph.Value

variable {ρ : Type}

/-- The number that a scalar counts as; truth values are zero and one. -/
def countsAs? : Value ρ → Option Num
  | .bool b => some (.int (if b then 1 else 0))
  | value => value.num?

/-- Equality of scalars. Nothing else is equal here. -/
def sameScalar : Value ρ → Value ρ → Bool
  | .null, .null => true
  | .str s, .str t => s == t
  | a, b =>
    match countsAs? a, countsAs? b with
    | some x, some y => x.same y
    | _, _ => false

/-- Two values are one thing: shares of one place, or the undefined number as texts write it. -/
def identical [BEq ρ] : Value ρ → Value ρ → Bool
  | .shared a, .shared b => a == b
  | .float x, .float y => x.isNaN && y.isNaN
  | _, _ => false

/-- Two keys are one key. -/
def sameKey [BEq ρ] (a b : Value ρ) : Bool := identical a b || sameScalar a b

end ResourceGraph.Value
