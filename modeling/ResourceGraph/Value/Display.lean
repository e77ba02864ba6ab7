import ResourceGraph.Number.Reading
import ResourceGraph.Text.Quoted
import ResourceGraph.Value.Basic

/-!
Values as messages show them. A text shown on its own appears as it is; inside a container, and
wherever a message quotes a value, it is put into quotes. Whole numbers are written with as many
digits as they are read with, and with no more: a value that holds a longer one is not written at
all.
-/

namespace ResourceGraph.Value

open Text

variable {ρ : Type}

mutual

/-- The value as a message quotes it, with a text for each share. -/
def displayWith (mark : ρ → String) : Value ρ → String
  | .null => "None"
  | .bool true => "True"
  | .bool false => "False"
  | .int n => toString n
  | .float x => Number.floatText x
  | .str s => quoted s
  | .list items => "[" ++ ", ".intercalate (displayItems mark items) ++ "]"
  | .object fields => "\x7b" ++ ", ".intercalate (displayFields mark fields) ++ "\x7d"
  | .table entries => "\x7b" ++ ", ".intercalate (displayEntries mark entries) ++ "\x7d"
  | .shared share => mark share

/-- The elements of a list, quoted. -/
def displayItems (mark : ρ → String) : List (Value ρ) → List String
  | [] => []
  | item :: rest => displayWith mark item :: displayItems mark rest

/-- The members of an object, quoted, each with its key. -/
def displayFields (mark : ρ → String) : List (String × Value ρ) → List String
  | [] => []
  | (key, value) :: rest =>
    (quoted key ++ ": " ++ displayWith mark value) :: displayFields mark rest

/-- The entries of an object, each key as it is quoted. -/
def displayEntries (mark : ρ → String) : List (Value ρ × Value ρ) → List String
  | [] => []
  | (key, value) :: rest =>
    (displayWith mark key ++ ": " ++ displayWith mark value) :: displayEntries mark rest

end

/-- The value as plain text, with a text for each share: a text itself, anything else as it is
quoted. -/
def textWith (mark : ρ → String) : Value ρ → String
  | .str s => s
  | value => displayWith mark value

/-- The value as a message quotes it. -/
def display (v : Json) : String := displayWith (fun share => nomatch share) v

/-- The value as plain text. -/
def text (v : Json) : String := textWith (fun share => nomatch share) v

/-- Whole numbers from here on have too many digits to be written. -/
def tooLongNumber : Nat := Number.tenTo Number.digitLimit

mutual

/-- A whole number in the value has too many digits to be written. -/
def isTooLong : Value ρ → Bool
  | .int n => decide (tooLongNumber ≤ n.natAbs)
  | .list items => itemsTooLong items
  | .object fields => fieldsTooLong fields
  | .table entries => entriesTooLong entries
  | _ => false

/-- One of the elements is too long. -/
def itemsTooLong : List (Value ρ) → Bool
  | [] => false
  | item :: rest => isTooLong item || itemsTooLong rest

/-- One of the members is too long. -/
def fieldsTooLong : List (String × Value ρ) → Bool
  | [] => false
  | (_, value) :: rest => isTooLong value || fieldsTooLong rest

/-- One of the entries is too long, or its key is. -/
def entriesTooLong : List (Value ρ × Value ρ) → Bool
  | [] => false
  | (key, value) :: rest => isTooLong key || isTooLong value || entriesTooLong rest

end

end ResourceGraph.Value
