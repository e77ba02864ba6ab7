import ResourceGraph.ResourceType

/-!
Models: a compiled service. It has a root type, which stands for the service itself and has no
identifiers, and the types that its document names, in the order in which they are written.
-/

namespace ResourceGraph

/-- A compiled service. -/
structure Model where
  name : String
  root : ResourceType
  types : Keyed ResourceType
  deriving DecidableEq

namespace Model

/-- The names of the types, in order. -/
def typeNames (m : Model) : List String := Keyed.keys m.types

/-- The type with a name, or the names there are. -/
def resourceType (m : Model) (name : String) : Except Failure ResourceType :=
  match Keyed.get? m.types name with
  | some type => .ok type
  | none => .error (.unknownModelType m.name name m.typeNames)

/-- The model as messages show it. -/
def display (m : Model) : String :=
  "ServiceModel(" ++ Text.quoted m.name ++ ", resource_types=" ++ Text.quotedList m.typeNames ++ ")"

end Model

end ResourceGraph
