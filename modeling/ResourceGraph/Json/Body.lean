import ResourceGraph.Failure

/-!
Bodies: JSON that arrives as bytes. The zero bytes at the start tell in which form its characters
are written, because JSON text starts with a character below 128; without zero bytes they are in
UTF-8, with or without a mark in front. A body is given here as the text that its bytes are in
UTF-8.
-/

namespace ResourceGraph.Json

/-- The forms that characters may be written in. -/
inductive Encoding
  | utf8
  | utf16 (bigEndian : Bool)
  | utf32 (bigEndian : Bool)
  deriving DecidableEq, Repr

/-- The form that the first bytes tell of. -/
def Encoding.ofBytes : List Nat → Encoding
  | a :: b :: c :: d :: _ =>
    if a == 0 then if b == 0 then .utf32 true else .utf16 true
    else if b == 0 then if c == 0 && d == 0 then .utf32 false else .utf16 false
    else .utf8
  | [a, b] => if a == 0 then .utf16 true else if b == 0 then .utf16 false else .utf8
  | _ => .utf8

/-- The number that two bytes write. -/
def pairOf (bigEndian : Bool) (a b : Nat) : Nat := if bigEndian then a * 256 + b else b * 256 + a

/-- The units that bytes write two by two, if none is left over. -/
def pairs? (bigEndian : Bool) : List Nat → Option (List Nat)
  | [] => some []
  | [_] => none
  | a :: b :: rest => (pairs? bigEndian rest).map (pairOf bigEndian a b :: ·)

/-- The numbers that bytes write four by four, if none is left over. -/
def quads? (bigEndian : Bool) : List Nat → Option (List Nat)
  | [] => some []
  | a :: b :: c :: d :: rest =>
    let high := pairOf bigEndian a b
    let low := pairOf bigEndian c d
    let code := if bigEndian then high * 65536 + low else low * 65536 + high
    (quads? bigEndian rest).map (code :: ·)
  | _ => none

/-- The character of a number. Half of a surrogate pair has none, and stands as the replacement
mark. -/
def charOf (code : Nat) : Char := if h : code.isValidChar then Char.ofNatAux code h else '\uFFFD'

/-- The characters of UTF-16 units. -/
def charsOfUnits : List Nat → List Char
  | [] => []
  | [unit] => [charOf unit]
  | high :: low :: rest =>
    if 0xD800 ≤ high && high < 0xDC00 && 0xDC00 ≤ low && low < 0xE000 then
      charOf (0x10000 + (high - 0xD800) * 1024 + (low - 0xDC00)) :: charsOfUnits rest
    else charOf high :: charsOfUnits (low :: rest)

/-- The characters of a body, if its bytes write characters at all. -/
def bodyChars? (body : String) : Option (List Char) :=
  let bytes := body.toUTF8.toList.map UInt8.toNat
  match Encoding.ofBytes bytes with
  | .utf8 =>
    match body.toList with
    | '\uFEFF' :: rest => some rest
    | cs => some cs
  | .utf16 bigEndian => (pairs? bigEndian bytes).map charsOfUnits
  | .utf32 bigEndian =>
    match quads? bigEndian bytes with
    | some codes => if codes.all (· < 0x110000) then some (codes.map charOf) else none
    | none => none

/-- Reads the JSON value that a body holds. -/
def readBody (body : String) : Except Failure Json :=
  match bodyChars? body with
  | none => .error .undecodable
  | some cs =>
    match read (String.ofList cs) with
    | .ok value => .ok value
    | .error fault => .error (.unreadable fault)

end ResourceGraph.Json
