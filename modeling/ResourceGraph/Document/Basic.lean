import ResourceGraph.Builder
import ResourceGraph.Projection

/-!
Definition documents: the rules a service is compiled from. A service and each of its resources hold
actions and associations; a resource also has identifiers, a load rule and child types. Every map
keeps the order in which it was written.
-/

namespace ResourceGraph

/-- One projection of a request. The source is a text, a whole number or a truth value. -/
structure ParamRule where
  target : String
  kind : ProjectionKind
  source : Json
  deriving DecidableEq

/-- A call and its projections. -/
structure RequestRule where
  operation : String
  params : List ParamRule := []
  deriving DecidableEq

/-- Where one identifier of a built resource comes from. -/
structure SourceRule where
  target : String
  kind : SourceKind
  source : String
  deriving DecidableEq

/-- How resources are built, of which type where the rule itself says so. -/
structure BuildRule where
  type : Option String := none
  identifiers : List SourceRule := []
  path : Option String := none
  deriving DecidableEq

/-- How a resource's data is loaded. -/
structure LoadRule where
  request : RequestRule
  path : String
  deriving DecidableEq

/-- An action: the response itself, the value at a path of it, or resources built from it. -/
structure ActionRule where
  request : RequestRule
  path : Option String := none
  resource : Option BuildRule := none
  deriving DecidableEq

/-- A call whose response resources are built from. -/
structure CallRule where
  request : RequestRule
  resource : BuildRule := {}
  deriving DecidableEq

/-- A plural association: listed, created and looked up by key. -/
structure HasManyRule where
  type : String
  enumerate : Option CallRule := none
  create : Option CallRule := none
  resource : Option BuildRule := none
  deriving DecidableEq

/-- A reference without a key. -/
structure AssociationRule where
  type : String
  resource : BuildRule := {}
  deriving DecidableEq

/-- Child types and the identifiers they share with their parent, each parent identifier with the
child's. -/
structure SubResourcesRule where
  resources : List String
  identifiers : Keyed String
  deriving DecidableEq

/-- The rules that a service and a resource have in common. -/
structure ContainerRules where
  actions : Keyed ActionRule := []
  hasMany : Keyed HasManyRule := []
  hasSome : Keyed AssociationRule := []
  hasOne : Keyed AssociationRule := []
  deriving DecidableEq

/-- The rules of one resource type. -/
structure ResourceRules where
  container : ContainerRules := {}
  identifiers : List String := []
  shape : Option String := none
  load : Option LoadRule := none
  subResources : Option SubResourcesRule := none
  deriving DecidableEq

/-- A whole definition document. -/
structure Document where
  service : ContainerRules := {}
  resources : Keyed ResourceRules := []
  deriving DecidableEq

end ResourceGraph
