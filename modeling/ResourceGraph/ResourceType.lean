import ResourceGraph.Operation

/-!
Resource types: the template that all resources of one kind share. A type has an ordered list of
identifiers, named operations and at most one load operation. It can be changed until it is frozen,
and every change keeps its names apart: identifiers are distinct, no operation has the name of an
identifier, and neither takes a name that every resource already has.
-/

namespace ResourceGraph

/-- The names that every resource already has. -/
def reservedNames : List String :=
  ["client", "data", "data_loaded", "identifiers", "invoke", "load", "reload", "resource_type"]

/-- The template of one kind of resource. The factory is the client that resources get when none is
given; a factory gives a client, and never null. -/
structure ResourceType where
  name : String
  identifiers : List String := []
  /-- The accessors in order: the name of each, and the identifier of a resource that it reads. -/
  accessors : Keyed String := identifiers.map fun name => (name, name)
  operations : Keyed Operation := []
  load : Option Operation := none
  isFrozen : Bool := false
  factory : Option Nat := none
  deriving DecidableEq

namespace ResourceType

/-- A fault, as the outcome of a change. -/
def refuse (f : DefinitionFault) : Except Failure ResourceType := .error (.definition f)

/-- The type with one more identifier, and an accessor that reads it. -/
def addIdentifier (t : ResourceType) (name : String) : Except Failure ResourceType :=
  if t.isFrozen then refuse (.frozen t.name)
  else if t.identifiers.contains name then refuse (.duplicateIdentifier t.name name)
  else if reservedNames.contains name then refuse (.reservedIdentifier t.name name)
  else .ok { t with
    identifiers := t.identifiers ++ [name]
    accessors := t.accessors ++ [(name, name)] }

/-- The type with its load operation. -/
def setLoad (t : ResourceType) (o : Operation) : Except Failure ResourceType :=
  if t.isFrozen then refuse (.frozen t.name)
  else if o.kind != .load then refuse (.notALoad o.kind.name)
  else if t.load.isSome then refuse (.secondLoad t.name)
  else .ok { t with load := some o }

/-- The type with one more operation. -/
def addOperation (t : ResourceType) (name : String) (o : Operation) : Except Failure ResourceType :=
  if t.isFrozen then refuse (.frozen t.name)
  else if Keyed.has t.operations name then refuse (.duplicateOperation t.name name)
  else if t.identifiers.contains name || reservedNames.contains name then
    refuse (.shadowingOperation t.name name)
  else .ok { t with operations := t.operations ++ [(name, o)] }

/-- The type, closed for changes. -/
def freeze (t : ResourceType) : ResourceType := { t with isFrozen := true }

/-- A new type with identifiers added one after another. -/
def make (name : String) (identifiers : List String) (factory : Option Nat) :
    Except Failure ResourceType :=
  identifiers.foldlM addIdentifier { name, factory }

/-- The operation with a name. -/
def operation (t : ResourceType) (name : String) : Except Failure Operation :=
  match Keyed.get? t.operations name with
  | some o => .ok o
  | none => .error (.unknownOperation name (some t.name))

/-- The names of the operations, in the order they were added. -/
def operationNames (t : ResourceType) : List String := Keyed.keys t.operations

/-- The type as messages show it. -/
def display (t : ResourceType) : String :=
  "ResourceType(" ++ Text.quoted t.name ++ ", identifiers=" ++ Text.quotedList t.identifiers ++ ")"

end ResourceType

end ResourceGraph
