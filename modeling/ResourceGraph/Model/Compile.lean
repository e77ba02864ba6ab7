import ResourceGraph.Document.Check
import ResourceGraph.Model.Basic
import ResourceGraph.Model.Plan

/-!
Compiling a document into a model. Types are made first, so that every rule can refer to every type;
then the plan of the document is carried out step by step; then each type that at most one
identifier tells apart becomes a reference of the root, unless the root has an operation of that
name; and last every type is frozen.
-/

namespace ResourceGraph

/-- A model while its operations are being attached. -/
structure Draft where
  root : ResourceType
  types : Keyed ResourceType
  deriving DecidableEq

namespace Draft

/-- The draft with one of its types changed. -/
def change (d : Draft) (site : Site) (f : ResourceType → Except Failure ResourceType) :
    Except Failure Draft :=
  match site with
  | .root => do return { d with root := ← f d.root }
  | .resource index =>
    match d.types[index]? with
    | some (name, type) => do return { d with types := d.types.set index (name, ← f type) }
    | none => .ok d

/-- A type with something attached. -/
def attachTo (type : ResourceType) : Attachment → Except Failure ResourceType
  | .load operation => type.setLoad operation
  | .operation name operation => type.addOperation name operation

/-- One step of a plan. -/
def take (d : Draft) (step : Step) : Except Failure Draft := do
  let attachment ← step.attachment
  d.change step.site fun type => attachTo type attachment

/-- The reference of the root to a type that at most one identifier tells apart. -/
def expose (d : Draft) (type : TypeSignature) : Except Failure Draft := do
  let name := Naming.snakeCase type.ref.name
  if 1 < type.identifiers.length || Keyed.has d.root.operations name then return d
  else
    let operation ← Plan.related type []
    d.change .root fun root => root.addOperation name operation

end Draft

namespace Model

/-- The types of a document, with their identifiers and nothing attached. -/
def bareTypes (d : Document) (factory : Option Nat) : Except Failure (Keyed ResourceType) :=
  d.resources.mapM fun (name, rules) => do
    return (name, ← ResourceType.make name (rules.identifiers.map Naming.snakeCase) factory)

/-- The types as rules refer to them. -/
def scopeOf (types : Keyed ResourceType) : Scope :=
  types.zipIdx.map fun ((name, type), index) => (name, ⟨⟨index, name⟩, type.identifiers⟩)

/-- Compiles a document into the model of a service. -/
def ofDocument (d : Document) (service : String) (factory : Option Nat) : Except Failure Model := do
  let types ← bareTypes d factory
  let scope := scopeOf types
  let bare : Draft := ⟨{ name := service, factory }, types⟩
  let planned ← (Plan.ofDocument d service scope).foldlM Draft.take bare
  let exposed ← (scope.map Prod.snd).foldlM Draft.expose planned
  return {
    name := service
    root := exposed.root.freeze
    types := exposed.types.map fun (name, type) => (name, type.freeze) }

/-- Compiles what is given as a document, once it fits the schema. -/
def compile (given : Json) (service : String) (factory : Option Nat) : Except Failure Model :=
  match Document.read given with
  | .accepted d => ofDocument d service factory
  | .rejected findings => .error (.definition (.schema findings.length))

end Model

end ResourceGraph
