import ResourceGraph.Json.Reader
import ResourceGraph.Path.Expr

/-!
Tokens of path expressions. Names are ASCII unless quoted; a literal between backquotes is JSON or,
where it is not, a bare text; single quotes hold text as it stands.
-/

namespace ResourceGraph.Path

open Text

/-- Why a text is no expression. -/
inductive TextFault
  | malformed
  | numberTooLong
  | tooDeep
  deriving DecidableEq, Repr

/-- The smallest meaningful parts of an expression. -/
inductive Token
  | name (text : String) (isQuoted : Bool)
  | literal (value : Json)
  | number (n : Int)
  | dot | star | comma | colon | at | ampersand
  | openParen | closeParen | openBracket | closeBracket | openBrace | closeBrace
  | flatten | filter
  | or | pipe | and | not
  | comparison (c : Comparison)
  deriving Inhabited

namespace Token

/-- A character that starts a bare name. -/
def startsName (c : Char) : Bool := isSmall c || isCapital c || c == '_'

/-- A character inside a bare name. -/
def continuesName (c : Char) : Bool := startsName c || isAsciiDigit c

/-- The token that one character is by itself. -/
def single? : Char → Option Token
  | '.' => some .dot
  | '*' => some .star
  | ']' => some .closeBracket
  | ',' => some .comma
  | ':' => some .colon
  | '@' => some .at
  | '(' => some .openParen
  | ')' => some .closeParen
  | '\x7b' => some .openBrace
  | '\x7d' => some .closeBrace
  | _ => none

/-- The text up to a delimiter and what follows it. A backslash protects the next character and
stays in the text. -/
def upTo? (delimiter : Char) : List Char → Option (List Char × List Char)
  | [] => none
  | c :: rest =>
    if c == delimiter then some ([], rest)
    else if c == '\\' then
      match rest with
      | [] => none
      | d :: more => (upTo? delimiter more).map fun (text, after) => (c :: d :: text, after)
    else (upTo? delimiter rest).map fun (text, after) => (c :: text, after)

/-- The text with every protected delimiter bare. -/
def unprotect (delimiter : Char) : List Char → List Char
  | '\\' :: c :: rest =>
    if c == delimiter then delimiter :: unprotect delimiter rest
    else '\\' :: unprotect delimiter (c :: rest)
  | c :: rest => c :: unprotect delimiter rest
  | [] => []

/-- The value of a literal between backquotes. -/
def literalValue (text : List Char) : Except TextFault Json :=
  match Json.read (String.ofList text) with
  | .ok value => .ok value
  | .error .tooDeep => .error .tooDeep
  | .error _ =>
    match Json.read (String.ofList ('"' :: trimStart isBlank text ++ ['"'])) with
    | .ok value => .ok value
    | .error _ => .error .malformed

/-- A name in double quotes, whose text follows the rules of JSON strings. -/
def quotedName (text : List Char) : Except TextFault Token :=
  match Json.read (String.ofList ('"' :: text ++ ['"'])) with
  | .ok (.str s) => .ok (.name s true)
  | _ => .error .malformed

/-- The text up to a delimiter, which must be there. -/
def upTo (delimiter : Char) (cs : List Char) : Except TextFault (List Char × List Char) :=
  match upTo? delimiter cs with
  | some found => .ok found
  | none => .error .malformed

/-- A whole number, which must not be too long. -/
def numberOf (isNegative : Bool) (digits : List Char) : Except TextFault Token :=
  if Number.digitLimit < digits.length then .error .numberTooLong
  else
    let size := Int.ofNat (digitsValue digits)
    .ok (.number (if isNegative then -size else size))

/-- The token that starts with a character that is no token by itself. -/
def longer (c : Char) (rest : List Char) : Except TextFault (Option Token × List Char) :=
  if Json.isGap c then .ok (none, rest)
  else if startsName c then
    let text := c :: rest.takeWhile continuesName
    .ok (some (.name (String.ofList text) false), rest.dropWhile continuesName)
  else if isAsciiDigit c then do
    let token ← numberOf false (c :: rest.takeWhile isAsciiDigit)
    return (some token, rest.dropWhile isAsciiDigit)
  else if c == '-' then
    let digits := rest.takeWhile isAsciiDigit
    if digits.isEmpty then .error .malformed
    else do
      let token ← numberOf true digits
      return (some token, rest.dropWhile isAsciiDigit)
  else if c == '\x60' then do
    let (text, after) ← upTo c rest
    let value ← literalValue (unprotect c text)
    return (some (.literal value), after)
  else if c == '\'' then do
    let (text, after) ← upTo c rest
    return (some (.literal (.str (String.ofList (unprotect c text)))), after)
  else if c == '"' then do
    let (text, after) ← upTo c rest
    let token ← quotedName text
    return (some token, after)
  else .error .malformed

/-- The token at the start of a text, if it is not a blank, and what follows. -/
def next : List Char → Except TextFault (Option Token × List Char)
  | [] => .error .malformed
  | '[' :: ']' :: rest => .ok (some .flatten, rest)
  | '[' :: '?' :: rest => .ok (some .filter, rest)
  | '[' :: rest => .ok (some .openBracket, rest)
  | '|' :: '|' :: rest => .ok (some .or, rest)
  | '|' :: rest => .ok (some .pipe, rest)
  | '&' :: '&' :: rest => .ok (some .and, rest)
  | '&' :: rest => .ok (some .ampersand, rest)
  | '<' :: '=' :: rest => .ok (some (.comparison .atMost), rest)
  | '<' :: rest => .ok (some (.comparison .below), rest)
  | '>' :: '=' :: rest => .ok (some (.comparison .atLeast), rest)
  | '>' :: rest => .ok (some (.comparison .above), rest)
  | '!' :: '=' :: rest => .ok (some (.comparison .unequal), rest)
  | '!' :: rest => .ok (some .not, rest)
  | '=' :: '=' :: rest => .ok (some (.comparison .equal), rest)
  | c :: rest =>
    match single? c with
    | some token => .ok (some token, rest)
    | none => longer c rest

/-- The tokens of a text after those that are `done`, given enough steps for its characters. -/
def scanFrom : Nat → List Token → List Char → Except TextFault (List Token)
  | _, done, [] => .ok done.reverse
  | 0, _, _ => .error .malformed
  | fuel + 1, done, cs =>
    match next cs with
    | .error fault => .error fault
    | .ok (token, rest) => scanFrom fuel (token.toList ++ done) rest

/-- All tokens of a text, or what is wrong with the first part of it that is none. -/
def scan (text : String) : Except TextFault (List Token) :=
  scanFrom text.toList.length [] text.toList

/-- How strongly a token binds what stands before it; tokens that never do have strength zero. -/
def strength : Token → Nat
  | pipe => 1
  | or => 2
  | and => 3
  | comparison _ => 5
  | flatten => 9
  | star => 20
  | filter => 21
  | dot => 40
  | not => 45
  | openBrace => 50
  | openBracket => 55
  | openParen => 60
  | _ => 0

end Token

end ResourceGraph.Path
