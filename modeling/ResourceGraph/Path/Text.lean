import ResourceGraph.Path.Token

/-!
Reading path expressions by binding strength. A projection reaches as far right as its strength
allows: everything that binds less strongly than ten ends it and applies to the projected list as a
whole. Expressions may lie inside each other only so deep: each reader takes one of the steps there
is room for, and gives it back when it is done.
-/

namespace ResourceGraph.Path

/-- An expression read from the start of a list of tokens, and the rest of it. -/
abbrev Reading := Except TextFault (Expr × List Token)

/-- The tokens are no expression. -/
def noReading {α : Type} : Except TextFault α := .error .malformed

/-- The strength of the token that comes next. -/
def nextStrength : List Token → Nat
  | [] => 0
  | token :: _ => token.strength

/-- Tokens that bind less than this end a projection. -/
def projectionEnd : Nat := 10

/-- How many steps of reading may be under way at once. -/
def depthLimit : Nat := 988

/-- How many steps the shortest expression takes. -/
def shortest : Nat := 3

/-- The bounds of a slice, up to its closing bracket. -/
def readSlice (place : Nat) (start stop step : Option Int) :
    List Token → Except TextFault ((Option Int × Option Int × Option Int) × List Token)
  | .closeBracket :: rest => .ok ((start, stop, step), rest)
  | .colon :: rest => if place == 2 then noReading else readSlice (place + 1) start stop step rest
  | .number n :: rest =>
    match place with
    | 0 => readSlice place (some n) stop step rest
    | 1 => readSlice place start (some n) step rest
    | _ => readSlice place start stop (some n) rest
  | _ => noReading

mutual

/-- An expression whose operators bind more strongly than `floor`, with room for so many steps. -/
def readExpr : Nat → Nat → Nat → List Token → Reading
  | 0, _, _, _ => noReading
  | fuel + 1, room, floor, tokens =>
    if room < shortest then .error .tooDeep
    else do
      let (left, rest) ← readStart fuel (room - 1) tokens
      readMore fuel (room - 1) floor left rest

/-- The operators that follow an expression. -/
def readMore : Nat → Nat → Nat → Expr → List Token → Reading
  | 0, _, _, _, _ => noReading
  | fuel + 1, room, floor, left, tokens =>
    match tokens with
    | [] => .ok (left, [])
    | token :: rest =>
      if floor < token.strength then do
        let (next, more) ← readOperator fuel room left token rest
        readMore fuel room floor next more
      else .ok (left, tokens)

/-- The part of an expression that stands before any operator. -/
def readStart : Nat → Nat → List Token → Reading
  | 0, _, _ => noReading
  | fuel + 1, room, tokens =>
    match tokens with
    | .literal value :: rest => .ok (.literal (Value.ofJson value), rest)
    | .name text false :: rest => .ok (.field text, rest)
    | .name _ true :: .openParen :: _ => noReading
    | .name text true :: rest => .ok (.field text, rest)
    | .star :: .closeBracket :: rest => .ok (.eachValue .current .current, .closeBracket :: rest)
    | .star :: rest => do
      let (rhs, more) ← readProjected fuel (room - 1) 20 rest
      return (.eachValue .current rhs, more)
    | .filter :: rest => readFilter fuel (room - 1) .current rest
    | .openBrace :: rest => readMembers fuel (room - 1) [] rest
    | .openParen :: rest => do
      let (inner, more) ← readExpr fuel (room - 1) 0 rest
      match more with
      | .closeParen :: after => return (inner, after)
      | _ => noReading
    | .flatten :: rest => do
      let (rhs, more) ← readProjected fuel (room - 1) 9 rest
      return (.each (.flatten .current) rhs, more)
    | .not :: rest => do
      let (operand, more) ← readExpr fuel (room - 1) 45 rest
      return (.negate operand, more)
    | .openBracket :: rest =>
      match rest with
      | .number _ :: _ | .colon :: _ => readPlace fuel (room - 1) .current rest
      | .star :: .closeBracket :: after => do
        let (rhs, more) ← readProjected fuel (room - 1) 20 after
        return (.each .current rhs, more)
      | _ => readElements fuel (room - 1) [] rest
    | .at :: rest => .ok (.current, rest)
    | .ampersand :: rest => do
      let (query, more) ← readExpr fuel (room - 1) 0 rest
      return (.quotation query, more)
    | _ => noReading

/-- What an operator makes of the expression before it. -/
def readOperator : Nat → Nat → Expr → Token → List Token → Reading
  | 0, _, _, _, _ => noReading
  | fuel + 1, room, left, token, rest =>
    match token with
    | .dot =>
      match rest with
      | .star :: after => do
        let (rhs, more) ← readProjected fuel (room - 1) 40 after
        return (.eachValue left rhs, more)
      | _ => do
        let (right, more) ← readMember fuel (room - 1) 40 rest
        return (left.followedBy right, more)
    | .pipe => do
      let (right, more) ← readExpr fuel (room - 1) 1 rest
      return (.pipe left right, more)
    | .or => do
      let (right, more) ← readExpr fuel (room - 1) 2 rest
      return (.either left right, more)
    | .and => do
      let (right, more) ← readExpr fuel (room - 1) 3 rest
      return (.both left right, more)
    | .comparison c => do
      let (right, more) ← readExpr fuel (room - 2) 5 rest
      return (.compare c left right, more)
    | .flatten => do
      let (rhs, more) ← readProjected fuel (room - 1) 9 rest
      return (.each (.flatten left) rhs, more)
    | .filter => readFilter fuel room left rest
    | .openBracket =>
      match rest with
      | .number _ :: _ | .colon :: _ => readPlace fuel (room - 1) left rest
      | .star :: .closeBracket :: after => do
        let (rhs, more) ← readProjected fuel (room - 1) 20 after
        return (.each left rhs, more)
      | _ => noReading
    | .openParen =>
      match left with
      | .field name => do
        let (arguments, more) ← readArguments fuel (room - 1) [] rest
        return (.call name arguments, more)
      | _ => noReading
    | _ => noReading

/-- A place or a slice after its opening bracket. A slice projects, unless a place or slice was
selected directly before it. -/
def readPlace : Nat → Nat → Expr → List Token → Reading
  | 0, _, _, _ => noReading
  | fuel + 1, room, left, tokens =>
    match tokens with
    | .number n :: .closeBracket :: rest => .ok (left.followedBy (.index n), rest)
    | .number _ :: .colon :: _ | .colon :: _ => do
      let ((start, stop, step), more) ← readSlice 0 none none none tokens
      let sliced := left.followedBy (.slice start stop step)
      if left.selectsPlace then return (sliced, more)
      else
        let (rhs, after) ← readProjected fuel (room - 1) 20 more
        return (.each sliced rhs, after)
    | _ => noReading

/-- A filter after its opening mark. -/
def readFilter : Nat → Nat → Expr → List Token → Reading
  | 0, _, _, _ => noReading
  | fuel + 1, room, left, tokens => do
    let (condition, more) ← readExpr fuel (room - 1) 0 tokens
    match more with
    | .closeBracket :: .flatten :: rest =>
      return (.filter left .current condition, .flatten :: rest)
    | .closeBracket :: rest => do
      let (rhs, after) ← readProjected fuel (room - 1) 21 rest
      return (.filter left rhs condition, after)
    | _ => noReading

/-- What is asked of every projected element. -/
def readProjected : Nat → Nat → Nat → List Token → Reading
  | 0, _, _, _ => noReading
  | fuel + 1, room, floor, tokens =>
    if nextStrength tokens < projectionEnd then .ok (.current, tokens)
    else
      match tokens with
      | .openBracket :: _ | .filter :: _ => readExpr fuel (room - 1) floor tokens
      | .dot :: rest => readMember fuel (room - 1) floor rest
      | _ => noReading

/-- What may follow a dot. -/
def readMember : Nat → Nat → Nat → List Token → Reading
  | 0, _, _, _ => noReading
  | fuel + 1, room, floor, tokens =>
    match tokens with
    | .name .. :: _ | .star :: _ => readExpr fuel (room - 1) floor tokens
    | .openBracket :: rest => readElements fuel (room - 1) [] rest
    | .openBrace :: rest => readMembers fuel (room - 1) [] rest
    | _ => noReading

/-- The elements of a new list, up to its closing bracket. -/
def readElements : Nat → Nat → List Expr → List Token → Reading
  | 0, _, _, _ => noReading
  | fuel + 1, room, done, tokens => do
    let (element, more) ← readExpr fuel (room - 1) 0 tokens
    match more with
    | .closeBracket :: rest => return (.listOf (element :: done).reverse, rest)
    | .comma :: rest => readElements fuel room (element :: done) rest
    | _ => noReading

/-- The members of a new object, up to its closing brace. The comma between them may be left out. -/
def readMembers : Nat → Nat → List (String × Expr) → List Token → Reading
  | 0, _, _, _ => noReading
  | fuel + 1, room, done, tokens =>
    match tokens with
    | .name key _ :: .colon :: rest => do
      let (value, more) ← readExpr fuel (room - 1) 0 rest
      match more with
      | .comma :: after => readMembers fuel room ((key, value) :: done) after
      | .closeBrace :: after => return (.objectOf ((key, value) :: done).reverse, after)
      | _ => readMembers fuel room ((key, value) :: done) more
    | _ => noReading

/-- The arguments of a function, up to its closing parenthesis. The comma between them may be left
out. -/
def readArguments :
    Nat → Nat → List Expr → List Token → Except TextFault (List Expr × List Token)
  | 0, _, _, _ => noReading
  | fuel + 1, room, done, tokens =>
    match tokens with
    | .closeParen :: rest => .ok (done.reverse, rest)
    | _ => do
      let (argument, more) ← readExpr fuel room 0 tokens
      match more with
      | .comma :: rest => readArguments fuel room (argument :: done) rest
      | _ => readArguments fuel room (argument :: done) more

end

/-- Reads a whole expression, or says why the text is none. Each token is met by a handful of
readers at most, which bounds the steps. -/
def Expr.ofText (text : String) : Except TextFault Expr := do
  let tokens ← Token.scan text
  let (expr, rest) ← readExpr (8 * (tokens.length + 2)) depthLimit 0 tokens
  if rest.isEmpty then return expr else .error .malformed

end ResourceGraph.Path
