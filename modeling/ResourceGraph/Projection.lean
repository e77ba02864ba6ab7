import ResourceGraph.Failure
import ResourceGraph.Text.Lower

/-!
Projections: one value written into a request's parameters. The value is an identifier of the
calling resource, a part of its data, or a literal fixed when the projection is made. Literals are
coerced to their kind once, at that moment.
-/

namespace ResourceGraph

/-- The kinds of value a projection writes. -/
inductive ProjectionKind
  | identifier | dataMember | string | integer | boolean
  deriving DecidableEq, Repr

/-- The names of the kinds in documents. -/
def ProjectionKind.name : ProjectionKind → String
  | identifier => "identifier"
  | dataMember => "dataMember"
  | string => "string"
  | integer => "integer"
  | boolean => "boolean"

/-- All kinds, in the order in which messages list them. -/
def ProjectionKind.all : List ProjectionKind := [identifier, dataMember, string, integer, boolean]

/-- The kind with a name. -/
def ProjectionKind.ofName? (name : String) : Option ProjectionKind :=
  ProjectionKind.all.find? fun kind => kind.name == name

/-- Where a projected value comes from. Identifier names and paths are kept as given: one that is no
text fails when it is looked up, not before. -/
inductive ProjectionSource
  | identifier (name : Json)
  | dataMember (path : Json)
  | text (s : String)
  | integer (n : Int)
  | flag (b : Bool)
  deriving DecidableEq

/-- The kind of a source. -/
def ProjectionSource.kind : ProjectionSource → ProjectionKind
  | identifier _ => .identifier
  | dataMember _ => .dataMember
  | text _ => .string
  | integer _ => .integer
  | flag _ => .boolean

/-- The source as written: a name, a path or the literal. -/
def ProjectionSource.given : ProjectionSource → Json
  | identifier name => name
  | dataMember path => path
  | text s => .str s
  | integer n => .int n
  | flag b => .bool b

/-- A value source bound to a target. -/
structure Projection where
  target : Target
  source : ProjectionSource
  deriving DecidableEq

namespace Projection

/-- A definition fault as a failure. -/
def fault (f : DefinitionFault) : Failure := .definition f

/-- The whole number that a literal stands for: numbers are cut toward zero, texts are read, truth
values are refused. -/
def integerLiteral (given : Json) : Except Failure Int :=
  let refused : Except Failure Int := faultQuoting .invalidInteger given
  match given with
  | .int n => .ok n
  | .float x =>
    match Number.Binary.ofFloat x with
    | .infinite _ => .error (.misuse .tooLarge)
    | number =>
      match number.truncate? with
      | some n => .ok n
      | none => refused
  | .str s =>
    match Number.readInt? s with
    | some n => .ok n
    | none => refused
  | _ => refused

/-- The truth value that a literal stands for: its name in any case of letters, or the number zero
or one. -/
def booleanLiteral (given : Json) : Except Failure Bool :=
  let refused : Except Failure Bool := faultQuoting .invalidBoolean given
  match given with
  | .bool b => .ok b
  | .int 0 => .ok false
  | .int 1 => .ok true
  | .str s =>
    let small := Text.lower s
    if small == "true" then .ok true else if small == "false" then .ok false else refused
  | _ => refused

/-- The source of a kind, from what is written for it. -/
def sourceOf (kind : ProjectionKind) (given : Json) : Except Failure ProjectionSource :=
  match kind with
  | .identifier => .ok (.identifier given)
  | .dataMember => .ok (.dataMember given)
  | .string => (written given given.text).map .text
  | .integer => (integerLiteral given).map .integer
  | .boolean => (booleanLiteral given).map .flag

/-- Reads a target, or says what is wrong with it. -/
def readTarget (expression : String) : Except Failure Target :=
  match Target.read expression with
  | .ok target => .ok target
  | .error .unknownForm => .error (fault (.invalidTarget expression))
  | .error .indexTooLong => .error (.misuse .badNumber)

/-- The kind that a written name means. -/
def readKind (given : Json) : Except Failure ProjectionKind :=
  let unknown : Except Failure ProjectionKind := faultQuoting .unknownParamSource given
  match given with
  | .str name =>
    match ProjectionKind.ofName? name with
    | some kind => .ok kind
    | none => unknown
  | _ => unknown

/-- Makes a projection: the literal is coerced before the target is read. -/
def make (target : String) (kind : ProjectionKind) (given : Json) : Except Failure Projection := do
  let source ← sourceOf kind given
  let address ← readTarget target
  return ⟨address, source⟩

end Projection

end ResourceGraph
