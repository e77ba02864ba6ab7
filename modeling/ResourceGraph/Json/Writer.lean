import ResourceGraph.Number.Decimal
import ResourceGraph.Text.Hex
import ResourceGraph.Text.Lone
import ResourceGraph.Value.Basic

/-!
JSON text without blanks. One form escapes every character that is not printed in ASCII, in pairs
beyond the first plane; the other writes such characters as they are.
-/

namespace ResourceGraph.Json

open Text

/-- A code unit written as an escape. -/
def escapeUnit (code : Nat) : List Char := '\\' :: 'u' :: hex 4 code

/-- A character inside a JSON string. -/
def escapeChar (asciiOnly : Bool) (c : Char) : List Char :=
  let n := c.toNat
  if c == '"' then ['\\', '"']
  else if c == '\\' then ['\\', '\\']
  else if c == '\n' then ['\\', 'n']
  else if c == '\r' then ['\\', 'r']
  else if c == '\t' then ['\\', 't']
  else if n == 0x0c then ['\\', 'f']
  else if n == 0x08 then ['\\', 'b']
  else if n < 0x20 then escapeUnit n
  else if n < 0x7f || !asciiOnly then [c]
  else if n < 0x10000 then escapeUnit n
  else
    match lone? c with
    | some unit => escapeUnit unit
    | none =>
      let above := n - 0x10000
      escapeUnit (0xd800 + above / 0x400) ++ escapeUnit (0xdc00 + above % 0x400)

/-- A JSON string. -/
def writeString (asciiOnly : Bool) (s : String) : String :=
  String.ofList ('"' :: s.toList.flatMap (escapeChar asciiOnly) ++ ['"'])

/-- A float in JSON text; the names for infinity and the undefined number are the customary ones. -/
def writeFloat (x : Float) : String :=
  match Number.Binary.ofFloat x with
  | .undefined => "NaN"
  | .infinite negative => if negative then "-Infinity" else "Infinity"
  | .finite .. => Number.floatText x

/-- The text that a key is written as. Numbers and names stand for themselves. -/
def keyText : Json → String
  | .null => "null"
  | .bool b => if b then "true" else "false"
  | .int n => toString n
  | .float x => writeFloat x
  | .str s => s
  | _ => ""

mutual

/-- The JSON text of a tree. -/
def write (asciiOnly : Bool) : Json → String
  | .null => "null"
  | .bool true => "true"
  | .bool false => "false"
  | .int n => toString n
  | .float x => writeFloat x
  | .str s => writeString asciiOnly s
  | .list items => "[" ++ ",".intercalate (writeItems asciiOnly items) ++ "]"
  | .object fields => "\x7b" ++ ",".intercalate (writeFields asciiOnly fields) ++ "\x7d"
  | .table entries => "\x7b" ++ ",".intercalate (writeEntries asciiOnly entries) ++ "\x7d"
  | .shared share => nomatch share

/-- The JSON texts of elements. -/
def writeItems (asciiOnly : Bool) : List Json → List String
  | [] => []
  | item :: rest => write asciiOnly item :: writeItems asciiOnly rest

/-- The JSON texts of members. -/
def writeFields (asciiOnly : Bool) : List (String × Json) → List String
  | [] => []
  | (key, value) :: rest =>
    (writeString asciiOnly key ++ ":" ++ write asciiOnly value) :: writeFields asciiOnly rest

/-- The JSON texts of entries. -/
def writeEntries (asciiOnly : Bool) : List (Json × Json) → List String
  | [] => []
  | (key, value) :: rest =>
    (writeString asciiOnly (keyText key) ++ ":" ++ write asciiOnly value) ::
      writeEntries asciiOnly rest

end

end ResourceGraph.Json
