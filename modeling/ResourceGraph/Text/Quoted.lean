import ResourceGraph.Text.Hex
import ResourceGraph.Text.Lone
import ResourceGraph.Text.Printable

/-!
Quoted text, as messages show names and values. Single quotes are the rule; a text that holds a
single quote and no double quote is put into double ones instead, so that most texts need no escape.
-/

namespace ResourceGraph.Text

/-- The quote that a text is put into. -/
def quoteFor (cs : List Char) : Char :=
  if cs.contains '\'' && !cs.contains '"' then '"' else '\''

/-- One character between the given quotes. -/
def escapeChar (quote c : Char) : List Char :=
  if c == '\\' || c == quote then ['\\', c]
  else if c == '\n' then ['\\', 'n']
  else if c == '\r' then ['\\', 'r']
  else if c == '\t' then ['\\', 't']
  else if isPrintable c then [c]
  else if c.toNat < 0x100 then '\\' :: 'x' :: hex 2 c.toNat
  else if c.toNat < 0x10000 then '\\' :: 'u' :: hex 4 c.toNat
  else
    match lone? c with
    | some unit => '\\' :: 'u' :: hex 4 unit
    | none => '\\' :: 'U' :: hex 8 c.toNat

/-- The characters of the quoted form. -/
def quoteChars (cs : List Char) : List Char :=
  quoteFor cs :: cs.flatMap (escapeChar (quoteFor cs)) ++ [quoteFor cs]

/-- The quoted form of a text. -/
def quoted (s : String) : String := String.ofList (quoteChars s.toList)

/-- A bracketed list of quoted texts. -/
def quotedList (items : List String) : String :=
  "[" ++ ", ".intercalate (items.map quoted) ++ "]"

end ResourceGraph.Text
