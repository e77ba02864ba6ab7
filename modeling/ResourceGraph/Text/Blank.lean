/-!
Blank characters. Numbers may be surrounded by white space of every script; four separator controls
count as blank where a text is trimmed, but not around a number.
-/

namespace ResourceGraph.Text

/-- White space of every script. -/
def isSpace (c : Char) : Bool :=
  let n := c.toNat
  (9 ≤ n && n ≤ 13) || n == 0x20 || n == 0x85 || n == 0xa0 || n == 0x1680 ||
    (0x2000 ≤ n && n ≤ 0x200a) || n == 0x2028 || n == 0x2029 || n == 0x202f || n == 0x205f ||
    n == 0x3000

/-- White space, or one of the four information separators. -/
def isBlank (c : Char) : Bool := isSpace c || (0x1c ≤ c.toNat && c.toNat ≤ 0x1f)

/-- A text without the leading characters of a class. -/
def trimStart (blank : Char → Bool) (cs : List Char) : List Char := cs.dropWhile blank

/-- A text without the leading and trailing characters of a class. -/
def trim (blank : Char → Bool) (cs : List Char) : List Char :=
  (trimStart blank (trimStart blank cs).reverse).reverse

end ResourceGraph.Text
