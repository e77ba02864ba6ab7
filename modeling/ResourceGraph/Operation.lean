import ResourceGraph.Builder
import ResourceGraph.Request

/-!
Operations: the named behaviours of a resource type. Each kind needs certain parts, and an operation
without them cannot be made. Parts that its kind has no use for are kept beside it, because they can
be seen.
-/

namespace ResourceGraph

/-- The kinds of operation. -/
inductive OperationKind
  | basic | data | enumerateData | resource | enumerateResource | reference | load
  deriving DecidableEq, Repr

namespace OperationKind

/-- The names of the kinds. -/
def name : OperationKind → String
  | basic => "basic"
  | data => "data"
  | enumerateData => "enumerate_data"
  | resource => "resource"
  | enumerateResource => "enumerate_resource"
  | reference => "reference"
  | load => "load"

/-- All kinds. -/
def all : List OperationKind :=
  [basic, data, enumerateData, resource, enumerateResource, reference, load]

/-- The kind with a name. -/
def ofName? (name : String) : Option OperationKind := all.find? fun kind => kind.name == name

end OperationKind

/-- What an operation does. -/
inductive Work
  /-- One call; the response itself. -/
  | basic (request : Request)
  /-- One call; the value at a path of the response. -/
  | data (request : Request) (path : String)
  /-- A paginated call; the values that the path gives on each page. -/
  | enumerateData (request : Request) (path : String)
  /-- One call; resources built from the response. -/
  | resource (request : Request) (builder : Builder)
  /-- A paginated call; resources built from each page. -/
  | enumerateResource (request : Request) (builder : Builder)
  /-- No call; resources built from identifiers. -/
  | reference (builder : Builder)
  /-- One call; replaces the data of the calling resource. -/
  | load (request : Request) (path : String)
  deriving DecidableEq

/-- Parts that an operation may be given. -/
structure Parts where
  request : Option Request := none
  builder : Option Builder := none
  path : Option String := none
  deriving DecidableEq

/-- The parts that a kind has a use for. -/
def Parts.usedBy (parts : Parts) : OperationKind → Parts
  | .basic => { request := parts.request }
  | .data | .enumerateData | .load => { request := parts.request, path := parts.path }
  | .resource | .enumerateResource => { request := parts.request, builder := parts.builder }
  | .reference => { builder := parts.builder }

/-- An operation: its work, and the parts given that the work has no use for. -/
structure Operation where
  work : Work
  spare : Parts := {}
  deriving DecidableEq

namespace Operation

/-- The kind of an operation. -/
def kind (o : Operation) : OperationKind :=
  match o.work with
  | .basic _ => .basic
  | .data .. => .data
  | .enumerateData .. => .enumerateData
  | .resource .. => .resource
  | .enumerateResource .. => .enumerateResource
  | .reference _ => .reference
  | .load .. => .load

/-- The request, used or spare. -/
def request? (o : Operation) : Option Request :=
  match o.work with
  | .basic r | .data r _ | .enumerateData r _ | .resource r _ | .enumerateResource r _
  | .load r _ => some r
  | .reference _ => o.spare.request

/-- The builder, used or spare. -/
def builder? (o : Operation) : Option Builder :=
  match o.work with
  | .resource _ b | .enumerateResource _ b | .reference b => some b
  | _ => o.spare.builder

/-- The path, used or spare. -/
def path? (o : Operation) : Option String :=
  match o.work with
  | .data _ p | .enumerateData _ p | .load _ p => some p
  | _ => o.spare.path

/-- The fault of a part that a kind needs and was not given. -/
def missing (part : String) (kind : OperationKind) : Failure :=
  .definition (.missingPart part kind.name)

/-- The request that a kind needs. -/
def needRequest (kind : OperationKind) (parts : Parts) : Except Failure Request :=
  match parts.request with
  | some r => .ok r
  | none => .error (missing "request" kind)

/-- The builder that a kind needs. -/
def needBuilder (kind : OperationKind) (parts : Parts) : Except Failure Builder :=
  match parts.builder with
  | some b => .ok b
  | none => .error (missing "builder" kind)

/-- The path that a kind needs; an empty one is none. -/
def needPath (kind : OperationKind) (parts : Parts) : Except Failure String :=
  match parts.path with
  | some p => if p.isEmpty then .error (missing "path" kind) else .ok p
  | none => .error (missing "path" kind)

/-- The work of a kind and the parts it leaves unused. -/
def assemble (kind : OperationKind) (parts : Parts) : Except Failure Operation :=
  match kind with
  | .basic => do
    let r ← needRequest kind parts
    return ⟨.basic r, { parts with request := none }⟩
  | .data => do
    let r ← needRequest kind parts
    let p ← needPath kind parts
    return ⟨.data r p, { builder := parts.builder }⟩
  | .enumerateData => do
    let r ← needRequest kind parts
    let p ← needPath kind parts
    return ⟨.enumerateData r p, { builder := parts.builder }⟩
  | .resource => do
    let r ← needRequest kind parts
    let b ← needBuilder kind parts
    return ⟨.resource r b, { path := parts.path }⟩
  | .enumerateResource => do
    let r ← needRequest kind parts
    let b ← needBuilder kind parts
    if b.isPlural then return ⟨.enumerateResource r b, { path := parts.path }⟩
    else .error (.definition .singularEnumeration)
  | .reference => do
    let b ← needBuilder kind parts
    return ⟨.reference b, { request := parts.request, path := parts.path }⟩
  | .load => do
    let r ← needRequest kind parts
    let p ← needPath kind parts
    return ⟨.load r p, { builder := parts.builder }⟩

/-- Makes an operation of a kind: its parts are there, and its path can be read. -/
def make (kind : OperationKind) (parts : Parts) : Except Failure Operation := do
  let operation ← assemble kind parts
  match operation.path? with
  | some path =>
    if path.isEmpty || path == Path.whole then return operation
    else
      let _ ← Path.compile path
      return operation
  | none => return operation

/-- The caller must pass an argument. -/
def requiresArgument (o : Operation) : Bool := (o.builder?.map Builder.requiresArgument).getD false

/-- The operation gives several results. -/
def isPlural (o : Operation) : Bool :=
  match o.builder? with
  | some b => b.isPlural
  | none => (o.path?.map Path.isPlural).getD false

/-- The operation as messages show it. -/
def display (o : Operation) : String :=
  let parts := [o.kind.name] ++ (o.request?.map Request.method).toList ++
    (o.builder?.map fun b => b.target.name).toList ++
    match o.path? with
    | some path => if path.isEmpty then [] else ["path=" ++ Text.quoted path]
    | none => []
  "Operation(" ++ ", ".intercalate parts ++ ")"

end Operation

end ResourceGraph
