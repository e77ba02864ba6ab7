import ResourceGraph.Number.Binary

/-!
Decimal text of floating-point numbers: the fewest digits that read back as the same number and, of
those, the nearest. Numbers from 10⁻⁴ up to 10¹⁶ are written positionally and always with a
fractional part; the others with an exponent of at least two digits.
-/

namespace ResourceGraph.Number

/-- A positive decimal number: `digits` read as a whole number, times ten to the `exponent`. -/
structure Decimal where
  digits : Nat
  exponent : Int
  deriving DecidableEq, Repr

/-- A positive fraction. -/
structure Fraction where
  numerator : Nat
  denominator : Nat

/-- A fraction times a power of ten. -/
def Fraction.scale (f : Fraction) (e : Int) : Fraction :=
  if 0 ≤ e then ⟨f.numerator * tenTo e.toNat, f.denominator⟩
  else ⟨f.numerator, f.denominator * tenTo (-e).toNat⟩

/-- The digits of a number, most significant first. -/
def decimalDigits (n : Nat) : List Char := Nat.toDigits 10 n

/-- The exponent of the leading decimal digit of a positive fraction. -/
def Fraction.magnitude (f : Fraction) : Int :=
  if f.denominator ≤ f.numerator then
    Int.ofNat (decimalDigits (f.numerator / f.denominator)).length - 1
  else
    let d := (decimalDigits (f.denominator / f.numerator)).length
    if f.denominator == f.numerator * tenTo (d - 1) then 1 - Int.ofNat d else -Int.ofNat d

/-- The fractions that round to one float: four times the bounds of the interval around
`significand · 2^exponent`, and whether the bounds belong to it. -/
structure Neighbourhood where
  low : Nat
  high : Nat
  centre : Nat
  unit : Fraction
  closed : Bool

/-- The neighbourhood of a positive finite float. Below a power of two the gap is half as wide. -/
def Neighbourhood.of (m : Nat) (e : Int) : Neighbourhood where
  low := if m == twoTo 52 && -1074 < e then 4 * m - 1 else 4 * m - 2
  high := 4 * m + 2
  centre := 4 * m
  unit := if 0 ≤ e then ⟨twoTo e.toNat, 4⟩ else ⟨1, 4 * twoTo (-e).toNat⟩
  closed := m % 2 == 0

/-- A decimal number lies in the neighbourhood. -/
def Neighbourhood.contains (n : Neighbourhood) (d : Decimal) : Bool :=
  let scaled := n.unit.scale (-d.exponent)
  let value := d.digits * scaled.denominator
  let low := n.low * scaled.numerator
  let high := n.high * scaled.numerator
  if n.closed then low ≤ value && value ≤ high else low < value && value < high

/-- The nearest decimal number with `count` digits in the neighbourhood, if there is one: a
neighbour of the centre on the grid that has that many digits. -/
def Neighbourhood.withDigits? (n : Neighbourhood) (magnitude : Int) (count : Nat) : Option Decimal :=
  let exponent := magnitude + 1 - Int.ofNat count
  let scaled := n.unit.scale (-exponent)
  let numerator := n.centre * scaled.numerator
  let below := numerator / scaled.denominator
  let rest := numerator % scaled.denominator
  let lower : Decimal := ⟨below, exponent⟩
  let upper : Decimal := ⟨below + 1, exponent⟩
  let nearer := if 2 * rest < scaled.denominator ||
      (2 * rest == scaled.denominator && below % 2 == 0) then [lower, upper] else [upper, lower]
  nearer.find? n.contains

/-- The shortest decimal number that reads back as a positive finite float. -/
def shortest (m : Nat) (e : Int) : Decimal :=
  let n := Neighbourhood.of m e
  let magnitude := Fraction.magnitude ⟨n.centre * n.unit.numerator, n.unit.denominator⟩
  ((List.range 17).findSome? fun i => n.withDigits? magnitude (i + 1)).getD ⟨m, 0⟩

/-- A decimal number's digits without trailing zeros, and the exponent of the first. -/
def Decimal.normal (d : Decimal) : List Char × Int :=
  let all := decimalDigits d.digits
  let kept := (all.reverse.dropWhile (· == '0')).reverse
  (kept, d.exponent + Int.ofNat all.length - 1)

/-- The text of digits whose first one has the given exponent. -/
def positional (digits : List Char) (magnitude : Int) : List Char :=
  if magnitude < 0 then
    '0' :: '.' :: List.replicate (-magnitude - 1).toNat '0' ++ digits
  else
    let whole := magnitude.toNat + 1
    let padded := digits ++ List.replicate (whole - digits.length) '0'
    let fraction := padded.drop whole
    padded.take whole ++ '.' :: (if fraction.isEmpty then ['0'] else fraction)

/-- The text of digits with an exponent. -/
def scientific (digits : List Char) (magnitude : Int) : List Char :=
  let size := decimalDigits magnitude.natAbs
  let padded := if size.length < 2 then '0' :: size else size
  let fraction := if digits.length ≤ 1 then [] else '.' :: digits.drop 1
  digits.take 1 ++ fraction ++ 'e' :: (if magnitude < 0 then '-' else '+') :: padded

/-- The text of a positive decimal number. -/
def Decimal.text (d : Decimal) : List Char :=
  let (digits, magnitude) := d.normal
  if -4 ≤ magnitude && magnitude < 16 then positional digits magnitude
  else scientific digits magnitude

/-- The text of a float. -/
def floatText (x : Float) : String :=
  let signed (negative : Bool) (cs : List Char) : String :=
    String.ofList (if negative then '-' :: cs else cs)
  match Binary.ofFloat x with
  | .undefined => "nan"
  | .infinite negative => signed negative ['i', 'n', 'f']
  | .finite negative 0 _ => signed negative ['0', '.', '0']
  | .finite negative m e => signed negative (shortest m e).text

/-- The float nearest to a decimal number. Exponents beyond every float's range are cut off before
any power is computed. -/
def Decimal.toFloat (negative : Bool) (d : Decimal) : Float :=
  let magnitude := d.exponent + Int.ofNat (decimalDigits d.digits).length
  if d.digits == 0 || magnitude < -400 then nearest negative 0 1
  else if 400 < magnitude then nearest negative (twoTo 1100) 1
  else
    let f := Fraction.scale ⟨d.digits, 1⟩ d.exponent
    nearest negative f.numerator f.denominator

end ResourceGraph.Number
