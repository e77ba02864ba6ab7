import ResourceGraph.Number.Reading
import ResourceGraph.Text.Hex
import ResourceGraph.Text.Lone
import ResourceGraph.Value.Basic

/-!
Reading JSON text. Objects keep the order of their keys; of two equal keys the last value counts, in
the place of the first. Numbers with a fraction or an exponent are floats, all others whole numbers
of up to 4300 digits; infinities and the undefined number have names. Containers may lie inside each
other only so deep.
-/

namespace ResourceGraph.Json

open Text Number

/-- Why a text is not read. -/
inductive ReadFault
  | malformed
  | numberTooLong
  /-- More containers lie inside each other than are read. -/
  | tooDeep
  deriving DecidableEq, Repr

/-- What is read from the start of a text, and the rest of it. -/
abbrev Read (α : Type) := Except ReadFault (α × List Char)

/-- Characters that may stand between tokens. -/
def isGap (c : Char) : Bool := c == ' ' || c == '\t' || c == '\n' || c == '\r'

/-- The text without leading gaps. -/
def skipGaps (cs : List Char) : List Char := cs.dropWhile isGap

/-- The code unit that four hexadecimal digits write. -/
def readUnit? : List Char → Option (Nat × List Char)
  | a :: b :: c :: d :: rest => do
    let w ← hexValue? a
    let x ← hexValue? b
    let y ← hexValue? c
    let z ← hexValue? d
    return (((w * 16 + x) * 16 + y) * 16 + z, rest)
  | _ => none

/-- The character of an escape that is a single letter. -/
def simpleEscape? : Char → Option Char
  | '"' => some '"'
  | '\\' => some '\\'
  | '/' => some '/'
  | 'b' => some (Char.ofNat 0x08)
  | 'f' => some (Char.ofNat 0x0c)
  | 'n' => some '\n'
  | 'r' => some '\r'
  | 't' => some '\t'
  | _ => none

/-- The character that a code unit starts, together with the unit after it where the two are a pair. -/
def readEscapedUnit? (cs : List Char) : Option (Char × List Char) := do
  let (unit, rest) ← readUnit? cs
  if 0xd800 ≤ unit && unit < 0xdc00 then
    match rest with
    | '\\' :: 'u' :: more =>
      match readUnit? more with
      | some (low, after) =>
        if 0xdc00 ≤ low && low < 0xe000 then
          return (Char.ofNat (0x10000 + (unit - 0xd800) * 0x400 + (low - 0xdc00)), after)
        else return (ofLone unit, rest)
      | none => return (ofLone unit, rest)
    | _ => return (ofLone unit, rest)
  else if 0xdc00 ≤ unit && unit < 0xe000 then return (ofLone unit, rest)
  else return (Char.ofNat unit, rest)

/-- The characters of a string after its opening quote. -/
def readStringFrom : Nat → List Char → List Char → Read String
  | 0, _, _ => .error .malformed
  | fuel + 1, done, cs =>
    match cs with
    | '"' :: rest => .ok (String.ofList done.reverse, rest)
    | '\\' :: 'u' :: rest =>
      match readEscapedUnit? rest with
      | some (c, more) => readStringFrom fuel (c :: done) more
      | none => .error .malformed
    | '\\' :: c :: rest =>
      match simpleEscape? c with
      | some e => readStringFrom fuel (e :: done) rest
      | none => .error .malformed
    | c :: rest =>
      if c == '\\' || c.toNat < 0x20 then .error .malformed
      else readStringFrom fuel (c :: done) rest
    | [] => .error .malformed

/-- A string after its opening quote. -/
def readString (cs : List Char) : Read String := readStringFrom (cs.length + 1) [] cs

/-- A number's exponent mark, sign and digits, if they are complete. -/
def splitExponent (cs : List Char) : Option (Int × List Char) :=
  match cs with
  | mark :: rest =>
    if mark == 'e' || mark == 'E' then
      let (negative, body) := splitSign rest
      let digits := body.takeWhile isAsciiDigit
      if digits.isEmpty then none
      else
        let size := Int.ofNat (digitsValue digits)
        some (if negative then -size else size, body.drop digits.length)
    else none
  | [] => none

/-- A number: a whole part without leading zeros, then a fraction and an exponent where they are
complete. -/
def readNumber (cs : List Char) : Read Json :=
  let (negative, body) := match cs with
    | '-' :: rest => (true, rest)
    | _ => (false, cs)
  let whole := match body with
    | '0' :: _ => ['0']
    | _ => body.takeWhile isAsciiDigit
  if whole.isEmpty then .error .malformed
  else
    let afterWhole := body.drop whole.length
    let fraction := match afterWhole with
      | '.' :: rest => rest.takeWhile isAsciiDigit
      | _ => []
    let afterFraction :=
      if fraction.isEmpty then afterWhole else afterWhole.drop (fraction.length + 1)
    match splitExponent afterFraction with
    | some (e, rest) =>
      .ok (.float (Decimal.toFloat negative
        ⟨digitsValue (whole ++ fraction), e - Int.ofNat fraction.length⟩), rest)
    | none =>
      if fraction.isEmpty then
        if digitLimit < whole.length then .error .numberTooLong
        else
          let size := Int.ofNat (digitsValue whole)
          .ok (.int (if negative then -size else size), afterFraction)
      else
        .ok (.float (Decimal.toFloat negative
          ⟨digitsValue (whole ++ fraction), -Int.ofNat fraction.length⟩), afterFraction)

/-- The words that are values, longest first where one begins another. -/
def words : List (List Char × Json) :=
  [("null".toList, .null), ("true".toList, .bool true), ("false".toList, .bool false),
   ("NaN".toList, .float (0.0 / 0.0)), ("Infinity".toList, .float (1.0 / 0.0)),
   ("-Infinity".toList, .float (-1.0 / 0.0))]

/-- A value that is written as a word. -/
def readWord? (cs : List Char) : Option (Json × List Char) :=
  words.findSome? fun (word, value) =>
    if word.isPrefixOf cs then some (value, cs.drop word.length) else none

/-- How many containers may lie inside each other. -/
def depthLimit : Nat := 982

mutual

/-- A value, without gaps before it, with room for so many containers inside each other. -/
def readValue : Nat → Nat → List Char → Read Json
  | 0, _, _ => .error .malformed
  | fuel + 1, room, cs =>
    match cs with
    | '"' :: rest =>
      match readString rest with
      | .ok (s, more) => .ok (.str s, more)
      | .error fault => .error fault
    | '[' :: rest =>
      match room with
      | 0 => .error .tooDeep
      | room + 1 =>
        match skipGaps rest with
        | ']' :: more => .ok (.list [], more)
        | start => readItems fuel room [] start
    | '\x7b' :: rest =>
      match room with
      | 0 => .error .tooDeep
      | room + 1 =>
        match skipGaps rest with
        | '\x7d' :: more => .ok (.object [], more)
        | start => readFields fuel room [] start
    | _ =>
      match readWord? cs with
      | some found => .ok found
      | none => readNumber cs

/-- The elements of a list up to its closing bracket. -/
def readItems : Nat → Nat → List Json → List Char → Read Json
  | 0, _, _, _ => .error .malformed
  | fuel + 1, room, done, cs =>
    match readValue fuel room cs with
    | .error fault => .error fault
    | .ok (item, rest) =>
      match skipGaps rest with
      | ',' :: more => readItems fuel room (item :: done) (skipGaps more)
      | ']' :: more => .ok (.list (item :: done).reverse, more)
      | _ => .error .malformed

/-- The members of an object up to its closing brace. -/
def readFields : Nat → Nat → Keyed Json → List Char → Read Json
  | 0, _, _, _ => .error .malformed
  | fuel + 1, room, done, cs =>
    match cs with
    | '"' :: start =>
      match readString start with
      | .error fault => .error fault
      | .ok (key, rest) =>
        match skipGaps rest with
        | ':' :: more =>
          match readValue fuel room (skipGaps more) with
          | .error fault => .error fault
          | .ok (value, after) =>
            match skipGaps after with
            | ',' :: next => readFields fuel room (Keyed.put done key value) (skipGaps next)
            | '\x7d' :: next => .ok (.object (Keyed.put done key value), next)
            | _ => .error .malformed
        | _ => .error .malformed
    | _ => .error .malformed

end

/-- Reads a JSON text that holds one value and nothing else. -/
def read (s : String) : Except ReadFault Json :=
  let cs := s.toList
  match readValue (cs.length + 1) depthLimit (skipGaps cs) with
  | .error fault => .error fault
  | .ok (value, rest) => if (skipGaps rest).isEmpty then .ok value else .error .malformed

end ResourceGraph.Json
