import ResourceGraph.Graph.Construct
import ResourceGraph.Model.Basic

/-!
Opening a model: a graph that has the types of the model, in the order of the model and with the
root last, and the clients that its resources may call.
-/

namespace ResourceGraph

namespace Model

/-- How the root of a model is referred to. -/
def rootRef (m : Model) : TypeRef := ⟨m.types.length, m.root.name⟩

/-- How the types of a model are referred to, by name. -/
def refs (m : Model) : Keyed TypeRef :=
  m.types.zipIdx.map fun ((name, type), index) => (name, ⟨index, type.name⟩)

end Model

/-- The graph of a model, without resources. -/
def Graph.ofModel (m : Model) (clients : List Client) : Graph :=
  { types := (m.types.map Prod.snd ++ [m.root]).toArray, clients := clients.toArray }

/-- Adds a type to the graph. -/
def Act.addType (type : ResourceType) : Act TypeRef :=
  modifyGet fun g => (⟨g.types.size, type.name⟩, { g with types := g.types.push type })

/-- Changes a type of the graph. -/
def Act.changeType (ref : TypeRef) (f : ResourceType → Except Failure ResourceType) :
    Act ResourceType := do
  let changed ← lift (f (← typeOf ref))
  modify fun g => { g with types := g.types.setIfInBounds ref.index changed }
  return changed

/-- Makes the root resource of a model. -/
def Act.root (m : Model) (client : Option ClientId) : Act ResourceId :=
  construct m.rootRef [] [] client none

end ResourceGraph
