/-!
Binary floating-point numbers taken apart and put together in exact arithmetic: a finite number is a
significand times a power of two, and any positive fraction has a nearest such number. Reading and
writing decimal text rest on these two directions.
-/

namespace ResourceGraph.Number

/-- A power of two. -/
def twoTo (k : Nat) : Nat := Nat.pow 2 k

/-- A power of ten. -/
def tenTo (k : Nat) : Nat := Nat.pow 10 k

/-- What a 64-bit floating-point number stands for. -/
inductive Binary
  | finite (negative : Bool) (significand : Nat) (exponent : Int)
  | infinite (negative : Bool)
  | undefined
  deriving DecidableEq, Repr

/-- The number that 64 bits write. -/
def Binary.ofBits (bits : Nat) : Binary :=
  let negative := bits / twoTo 63 % 2 == 1
  let field := bits / twoTo 52 % twoTo 11
  let fraction := bits % twoTo 52
  if field == 2047 then if fraction == 0 then .infinite negative else .undefined
  else if field == 0 then .finite negative fraction (-1074)
  else .finite negative (fraction + twoTo 52) (Int.ofNat field - 1075)

/-- The number that a float stands for. -/
def Binary.ofFloat (x : Float) : Binary := .ofBits x.toBits.toNat

/-- A quotient rounded to the nearest whole number, halves to the even one. -/
def roundedQuotient (numerator denominator : Nat) : Nat :=
  let whole := numerator / denominator
  let rest := numerator % denominator
  if denominator < 2 * rest || (2 * rest == denominator && whole % 2 == 1) then whole + 1 else whole

/-- The bits of the float nearest to a positive fraction. The exponent is chosen so that the
significand has 53 bits, or the least exponent is reached; a significand that rounds up to the next
power of two carries into the exponent field by itself. -/
def nearestBits (numerator denominator : Nat) : Nat :=
  let start : Int := Int.ofNat numerator.log2 - Int.ofNat denominator.log2 - 52
  let fits (e : Int) : Bool :=
    if 0 ≤ e then numerator < twoTo 53 * (denominator * twoTo e.toNat)
    else numerator * twoTo (-e).toNat < twoTo 53 * denominator
  let tight := if fits (start - 1) then start - 1 else start
  let e := max tight (-1074)
  let significand :=
    if 0 ≤ e then roundedQuotient numerator (denominator * twoTo e.toNat)
    else roundedQuotient (numerator * twoTo (-e).toNat) denominator
  let bits := (e + 1074).toNat * twoTo 52 + significand
  if 2047 * twoTo 52 ≤ bits then 2047 * twoTo 52 else bits

/-- The float nearest to a fraction; infinite beyond the largest one. -/
def nearest (negative : Bool) (numerator denominator : Nat) : Float :=
  let bits := if numerator == 0 then 0 else nearestBits numerator denominator
  Float.ofBits (UInt64.ofNat (if negative then bits + twoTo 63 else bits))

/-- The float nearest to a whole number, unless it is too large for any. -/
def ofInt? (n : Int) : Option Float :=
  let x := nearest (n < 0) n.natAbs 1
  if x.isFinite then some x else none

/-- A finite number cut to its whole part toward zero; none for the others. -/
def Binary.truncate? : Binary → Option Int
  | .finite negative m e =>
    let size : Nat := if 0 ≤ e then m * twoTo e.toNat else m / twoTo (-e).toNat
    some (if negative then -Int.ofNat size else Int.ofNat size)
  | _ => none

/-- The largest whole number not above a finite number. -/
def Binary.floor? : Binary → Option Int
  | .finite negative m e =>
    let signed : Int := if negative then -Int.ofNat m else Int.ofNat m
    some (if 0 ≤ e then signed * Int.ofNat (twoTo e.toNat)
      else signed.fdiv (Int.ofNat (twoTo (-e).toNat)))
  | _ => none

/-- A number without a fractional part. -/
def Binary.isWhole : Binary → Bool
  | .finite _ m e => 0 ≤ e || m % twoTo (-e).toNat == 0
  | _ => false

/-- How a whole number compares with a float, exactly; none against an undefined one. -/
def Binary.compareInt? (n : Int) : Binary → Option Ordering
  | .finite negative m e =>
    let signed : Int := if negative then -Int.ofNat m else Int.ofNat m
    some (if 0 ≤ e then compare n (signed * Int.ofNat (twoTo e.toNat))
      else compare (n * Int.ofNat (twoTo (-e).toNat)) signed)
  | .infinite negative => some (if negative then .gt else .lt)
  | .undefined => none

end ResourceGraph.Number
