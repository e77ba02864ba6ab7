import ResourceGraph.Number.Decimal
import ResourceGraph.Text.Blank
import ResourceGraph.Text.Digit

/-!
Numbers read from text that people wrote: white space around the number, digits of every script, and
single underscores between digits are accepted. Whole numbers have at most 4300 digits. A second
form keeps to ASCII digits and does not mind where single underscores stand.
-/

namespace ResourceGraph.Number

open Text

/-- The most digits a whole number is read or written with. -/
def digitLimit : Nat := 4300

/-- Digits with single underscores between them, without the underscores. -/
def groupedDigits? : List Char → Option (List Char)
  | [] => none
  | [c] => if isDigit c then some [c] else none
  | a :: b :: rest =>
    if isDigit a then
      if b == '_' then (groupedDigits? rest).map (a :: ·)
      else (groupedDigits? (b :: rest)).map (a :: ·)
    else none

/-- A text's sign, if it has one, and what follows. -/
def splitSign : List Char → Bool × List Char
  | '-' :: rest => (true, rest)
  | '+' :: rest => (false, rest)
  | cs => (false, cs)

/-- Reads a whole number. -/
def readInt? (s : String) : Option Int :=
  let (negative, body) := splitSign (trim isSpace s.toList)
  match groupedDigits? body with
  | none => none
  | some digits =>
    if digitLimit < digits.length then none
    else
      let size := Int.ofNat (digitsValue digits)
      some (if negative then -size else size)

/-- Digits that may be absent altogether. -/
def optionalDigits? (cs : List Char) : Option (List Char) :=
  if cs.isEmpty then some [] else groupedDigits? cs

/-- The exponent part of a number, after its mark. -/
def readExponent? (cs : List Char) : Option Int :=
  let (negative, body) := splitSign cs
  (groupedDigits? body).map fun digits =>
    let size := Int.ofNat (digitsValue digits)
    if negative then -size else size

/-- Whole and fractional digits of a number without sign and exponent: either part may be absent,
not both. -/
def readPoint? (cs : List Char) : Option (List Char × List Char) :=
  let whole := cs.takeWhile (· != '.')
  match cs.dropWhile (· != '.') with
  | [] => (groupedDigits? whole).map (·, [])
  | _ :: fraction =>
    match optionalDigits? whole, optionalDigits? fraction with
    | some w, some f => if w.isEmpty && f.isEmpty then none else some (w, f)
    | _, _ => none

/-- Reads a number with an optional fraction and exponent, or the name of infinity or of the
undefined number in any case of its letters. -/
def readFloat? (s : String) : Option Float :=
  let (negative, body) := splitSign (trim isSpace s.toList)
  let word := body.map Char.toLower
  if word == "inf".toList || word == "infinity".toList then
    some (nearest negative (twoTo 1100) 1)
  else if word == "nan".toList then some (0.0 / 0.0)
  else
    let mantissa := body.takeWhile fun c => c != 'e' && c != 'E'
    let exponent? : Option Int :=
      match body.drop mantissa.length with
      | [] => some 0
      | _ :: rest => readExponent? rest
    match readPoint? mantissa, exponent? with
    | some (whole, fraction), some e =>
      some (Decimal.toFloat negative
        ⟨digitsValue (whole ++ fraction), e - Int.ofNat fraction.length⟩)
    | _, _ => none

/-- Reads a number in ASCII digits, without anything around it or between its digits. -/
def readPlain? (cs : List Char) : Option Float :=
  let (negative, body) := splitSign cs
  let word := body.map Char.toLower
  if word == "inf".toList || word == "infinity".toList then
    some (nearest negative (twoTo 1100) 1)
  else if word == "nan".toList then some (0.0 / 0.0)
  else
    let whole := body.takeWhile isAsciiDigit
    let afterWhole := body.drop whole.length
    let (fraction, afterFraction) := match afterWhole with
      | '.' :: rest => (rest.takeWhile isAsciiDigit, rest.dropWhile isAsciiDigit)
      | _ => ([], afterWhole)
    let exponent? : Option Int := match afterFraction with
      | [] => some 0
      | mark :: rest =>
        let (isBelow, digits) := splitSign rest
        if (mark == 'e' || mark == 'E') && !digits.isEmpty && digits.all isAsciiDigit then
          let size := Int.ofNat (digitsValue digits)
          some (if isBelow then -size else size)
        else none
    if whole.isEmpty && fraction.isEmpty then none
    else exponent?.map fun e =>
      Decimal.toFloat negative ⟨digitsValue (whole ++ fraction), e - Int.ofNat fraction.length⟩

/-- A text without underscores, if there are some but none at an end or beside another. -/
def withoutUnderscores? (cs : List Char) : Option (List Char) :=
  let beside := (cs.zip (cs.drop 1)).any fun (a, b) => a == '_' && b == '_'
  if cs.head? == some '_' || cs.getLast? == some '_' || beside || !cs.contains '_' then none
  else some (cs.filter (· != '_'))

/-- Reads a number in ASCII digits. White space around it is passed over; where it is not a number
then, it may be one when single underscores are left out, wherever they stand. -/
def readLoose? (s : String) : Option Float :=
  match readPlain? (trim isSpace s.toList) with
  | some x => some x
  | none => (withoutUnderscores? s.toList).bind readPlain?

end ResourceGraph.Number
