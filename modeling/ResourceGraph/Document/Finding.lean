import ResourceGraph.Keyed

/-!
Findings: what does not fit where in a document. A check either accepts a part or gives all its
findings, and checks of several parts gather the findings of all of them in order.
-/

namespace ResourceGraph

/-- What does not fit. -/
inductive Problem
  | required
  | unknownKey
  | notText
  | notAList
  | notAMap
  | notAModel (name : String)
  | notWhole
  | fractional
  | notFinite
  | outsideRange
  | notATruthValue
  | notOneOf (names : List String)
  | refused (reason : String)
  deriving DecidableEq, Repr

/-- Names listed as alternatives, each in quotes. -/
def alternatives : List String → String
  | [] => ""
  | [name] => "'" ++ name ++ "'"
  | [name, last] => "'" ++ name ++ "' or '" ++ last ++ "'"
  | name :: rest => "'" ++ name ++ "', " ++ alternatives rest

/-- The text of a problem. -/
def Problem.message : Problem → String
  | required => "Field required"
  | unknownKey => "Extra inputs are not permitted"
  | notText => "Input should be a valid string"
  | notAList => "Input should be a valid list"
  | notAMap => "Input should be a valid dictionary"
  | notAModel name => "Input should be a valid dictionary or instance of " ++ name
  | notWhole => "Input should be a valid integer"
  | fractional => "Input should be a valid integer, got a number with a fractional part"
  | notFinite => "Input should be a finite number"
  | outsideRange => "Unable to parse input string as an integer, exceeded maximum size"
  | notATruthValue => "Input should be a valid boolean"
  | notOneOf names => "Input should be " ++ alternatives names
  | refused reason => "Value error, " ++ reason

/-- A problem and the keys and places that lead to it. -/
structure Finding where
  location : List String
  problem : Problem
  deriving DecidableEq, Repr

/-- The text of a finding: its location with points, and its problem. -/
def Finding.message (f : Finding) : String :=
  ".".intercalate f.location ++ " (" ++ f.problem.message ++ ")"

/-- The outcome of a check: the value, or everything that does not fit. -/
inductive Checked (α : Type)
  | accepted (value : α)
  | rejected (findings : List Finding)

namespace Checked

variable {α β : Type}

/-- The findings, none where the part was accepted. -/
def findings : Checked α → List Finding
  | accepted _ => []
  | rejected fs => fs

/-- A check with one finding about the part itself. -/
def reject (problem : Problem) : Checked α := rejected [⟨[], problem⟩]

/-- The check seen from outside: every location starts with a key or place. -/
def under (segment : String) : Checked α → Checked α
  | accepted value => accepted value
  | rejected fs => rejected (fs.map fun f => { f with location := segment :: f.location })

/-- The value changed by a function. -/
def map (f : α → β) : Checked α → Checked β
  | accepted value => accepted (f value)
  | rejected fs => rejected fs

/-- Two checks side by side, with the findings of both. -/
def apply (f : Checked (α → β)) (a : Checked α) : Checked β :=
  match f, a with
  | accepted g, accepted value => accepted (g value)
  | accepted _, rejected fs => rejected fs
  | rejected fs, accepted _ => rejected fs
  | rejected fs, rejected gs => rejected (fs ++ gs)

instance : Functor Checked where
  map := map

instance : Seq Checked where
  seq f a := apply f (a ())

/-- The check followed by further findings. -/
def withFindings (more : List Finding) (a : Checked α) : Checked α :=
  match a, more with
  | accepted value, [] => accepted value
  | _, _ => rejected (a.findings ++ more)

/-- A further check of an accepted value. -/
def andThen (a : Checked α) (check : α → Checked β) : Checked β :=
  match a with
  | accepted value => check value
  | rejected fs => rejected fs

end Checked

end ResourceGraph
