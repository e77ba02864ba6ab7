import ResourceGraph.Path.Search

/-!
Identifier sources: where one identifier of a built resource comes from. It is the argument of the
call, an identifier or part of the data of the calling resource, a parameter that was sent, or a
part of the response. A source whose path addresses a list makes the builder fan out.
-/

namespace ResourceGraph

/-- The kinds of identifier source. -/
inductive SourceKind
  | argument | identifier | dataMember | requestParameter | responsePath
  deriving DecidableEq, Repr

namespace SourceKind

/-- The names of the kinds. -/
def name : SourceKind → String
  | argument => "argument"
  | identifier => "identifier"
  | dataMember => "dataMember"
  | requestParameter => "requestParameter"
  | responsePath => "responsePath"

/-- All kinds. -/
def all : List SourceKind := [argument, identifier, dataMember, requestParameter, responsePath]

/-- The kinds that a document may name; an argument is never declared, it fills what is left open. -/
def declarable : List SourceKind := [identifier, dataMember, requestParameter, responsePath]

/-- The kind with a name. -/
def ofName? (name : String) : Option SourceKind := all.find? fun kind => kind.name == name

/-- The value is only known once a response is there. -/
def readsResponse : SourceKind → Bool
  | requestParameter | responsePath => true
  | _ => false

/-- The source text is a path. -/
def isPath : SourceKind → Bool
  | dataMember | responsePath => true
  | _ => false

end SourceKind

/-- Where the identifier `target` of a built resource comes from. -/
structure IdentifierSource where
  kind : SourceKind
  source : String
  target : String
  deriving DecidableEq, Repr

namespace IdentifierSource

/-- The kind that a written name means. -/
def readKind (given : Json) : Except Failure SourceKind :=
  let unknown : Except Failure SourceKind := faultQuoting .unknownIdentifierSource given
  match given with
  | .str name =>
    match SourceKind.ofName? name with
    | some kind => .ok kind
    | none => unknown
  | _ => unknown

/-- Makes a source, refusing a path that cannot be read. -/
def make (kind : SourceKind) (source target : String) : Except Failure IdentifierSource :=
  if kind.isPath then do
    let _ ← Path.compile source
    return ⟨kind, source, target⟩
  else .ok ⟨kind, source, target⟩

/-- The source that takes the argument of the call. -/
def ofArgument (target : String) : IdentifierSource := ⟨.argument, target, target⟩

/-- The value is a list with one element for each built resource. -/
def isPlural (s : IdentifierSource) : Bool := s.kind.isPath && Path.isPlural s.source

end IdentifierSource

end ResourceGraph
