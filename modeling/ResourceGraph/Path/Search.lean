import ResourceGraph.Failure
import ResourceGraph.Path.Eval

/-!
Searching data by the text of a path. The text `$` alone means the whole value and is no expression;
every other text is read as one, and a text that cannot be read is a definition fault. A path that
mentions a bracket addresses a list of values. An expression is read once, and kept with what it
writes out.
-/

namespace ResourceGraph.Path

/-- The text that stands for the whole value. -/
def whole : String := "$"

/-- The fault of a text that is no expression. -/
def invalid (text : String) : Failure := .definition (.invalidPath (Text.quoted text))

/-- Reads an expression, or says why the text is none. -/
def compile (text : String) : Except Failure Expr :=
  match Expr.ofText text with
  | .ok expr => .ok expr
  | .error .malformed => .error (invalid text)
  | .error .numberTooLong => .error (.misuse .badNumber)
  | .error .tooDeep => .error (.misuse .endless)

/-- Searching in a store. -/
abbrev Search := ExceptT Failure (StateM Store)

/-- The expression of a text, read now if it was not read before. -/
def expression (text : String) : Search Expr := do
  match Keyed.get? (← get).expressions text with
  | some known => return known
  | none =>
    match compile text with
    | .error fault => throw fault
    | .ok read => do
      let settled ← ExceptT.lift (Store.shareLiterals read)
      modify fun s => { s with expressions := Keyed.put s.expressions text settled }
      return settled

/-- The value at a path. -/
def search (text : String) (value : Datum) : Search Datum :=
  if text = whole then return value
  else do
    let asked ← expression text
    ExceptT.adapt Failure.path (eval asked value)

/-- The tree that is shown for what a path finds in a tree. -/
def searchTree (text : String) (tree : Json) : Except Failure Json :=
  let work : Search Json := do
    let found ← search text (← ExceptT.lift (Store.share (Value.ofJson tree)))
    match (← get).shownTree? found with
    | some result => return result
    | none => throw (.misuse .endless)
  (work.run.run {}).1

/-- The path addresses a list of values. -/
def isPlural (text : String) : Bool := text.toList.contains '['

end ResourceGraph.Path
