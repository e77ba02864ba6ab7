import ResourceGraph.Document.Check

/-!
Lint: everything in a document that its author should know, without refusing it. A document that
does not fit the schema is reported by its findings alone; otherwise every rule is looked at where
it stands.
-/

namespace ResourceGraph

/-- A remark about a document. -/
inductive Remark
  | schema (finding : Finding)
  | duplicateIdentifiers (resource : String)
  | prefixedIdentifier (resource identifier : String)
  | loadWithoutShape (resource : String)
  | invalidTarget (label target : String)
  | unknownType (label type : String)
  | unknownSubResource (resource child : String)
  deriving DecidableEq, Repr

/-- The text of a remark. -/
def Remark.message : Remark → String
  | schema finding => "Document does not match the definition schema: " ++ finding.message
  | duplicateIdentifiers resource => "Resource '" ++ resource ++ "' has duplicate identifiers."
  | prefixedIdentifier resource identifier =>
    "Resource '" ++ resource ++ "' identifier '" ++ identifier ++
      "' should not be prefixed by the resource name."
  | loadWithoutShape resource =>
    "Resource '" ++ resource ++ "' has defined 'load' but has not defined 'shape'."
  | invalidTarget label target =>
    label ++ " request defines a param target of \"" ++ target ++ "\" which is invalid."
  | unknownType label type =>
    label ++ " references an undefined resource type '" ++ type ++ "'."
  | unknownSubResource resource child =>
    "Resource '" ++ resource ++ "' declares an undefined sub-resource '" ++ child ++ "'."

namespace Lint

/-- The targets of a request that cannot be read. -/
def request (label : String) (r : RequestRule) : List Remark :=
  r.params.filterMap fun p =>
    match Target.read p.target with
    | .error .unknownForm => some (.invalidTarget label p.target)
    | _ => none

/-- A type name that the document does not define. -/
def type (d : Document) (label name : String) : List Remark :=
  if Keyed.has d.resources name then [] else [.unknownType label name]

/-- Remarks about an action. -/
def action (d : Document) (label : String) (a : ActionRule) : List Remark :=
  request label a.request ++
    match a.resource.bind BuildRule.type with
    | some name => type d label name
    | none => []

/-- Remarks about a plural association. -/
def hasMany (d : Document) (label : String) (h : HasManyRule) : List Remark :=
  type d label h.type ++
    (h.enumerate.toList ++ h.create.toList).flatMap fun rule => request label rule.request

/-- The label of a rule inside a container. -/
def ruleLabel (label kind name : String) : String := label ++ " " ++ kind ++ " '" ++ name ++ "'"

/-- Remarks about the rules that a service and a resource have in common. -/
def container (d : Document) (label : String) (c : ContainerRules) : List Remark :=
  (c.actions.flatMap fun (name, rule) => action d (ruleLabel label "action" name) rule) ++
    (c.hasMany.flatMap fun (name, rule) => hasMany d (ruleLabel label "hasMany" name) rule) ++
    (c.hasSome.flatMap fun (name, rule) => type d (ruleLabel label "hasSome" name) rule.type) ++
    (c.hasOne.flatMap fun (name, rule) => type d (ruleLabel label "hasOne" name) rule.type)

/-- The label of a resource. -/
def resourceLabel (name : String) : String := "Resource '" ++ name ++ "'"

/-- Identifiers that start with the name of their resource. -/
def identifierPrefixes (name : String) (identifiers : List String) : List Remark :=
  (identifiers.filter fun i => name.toList.isPrefixOf i.toList && i != name).map
    (.prefixedIdentifier name)

/-- Remarks about a load rule. -/
def load (name : String) (shape : Option String) (rule : LoadRule) : List Remark :=
  (if shape.isNone then [.loadWithoutShape name] else []) ++
    request (resourceLabel name ++ " load") rule.request

/-- Remarks about child types. -/
def subResources (d : Document) (name : String) (rule : SubResourcesRule) : List Remark :=
  (rule.resources.filter fun child => !Keyed.has d.resources child).map (.unknownSubResource name)

/-- Remarks about a resource. -/
def resource (d : Document) (name : String) (r : ResourceRules) : List Remark :=
  (if r.identifiers.Nodup then [] else [.duplicateIdentifiers name]) ++
    identifierPrefixes name r.identifiers ++
    (match r.load with
      | some rule => load name r.shape rule
      | none => []) ++
    (match r.subResources with
      | some rule => subResources d name rule
      | none => []) ++
    container d (resourceLabel name) r.container

/-- Remarks about a document that fits the schema. -/
def document (d : Document) : List Remark :=
  container d "Service" d.service ++ d.resources.flatMap fun (name, r) => resource d name r

end Lint

/-- The requests of the rules that a service and a resource have in common. -/
def ContainerRules.requests (c : ContainerRules) : List RequestRule :=
  c.actions.map (fun (_, rule) => rule.request) ++
    c.hasMany.flatMap fun (_, rule) =>
      (rule.enumerate.toList ++ rule.create.toList).map fun asked => asked.request

/-- All requests of a document. -/
def Document.requests (d : Document) : List RequestRule :=
  d.service.requests ++ d.resources.flatMap fun (_, r) =>
    (r.load.toList.map fun rule => rule.request) ++ r.container.requests

/-- A target of the request has an index with more digits than are read. -/
def RequestRule.hasLongIndex (r : RequestRule) : Bool :=
  r.params.any fun p =>
    match Target.read p.target with
    | .error .indexTooLong => true
    | _ => false

/-- All remarks about a document. An index that is too long to be read leaves none at all. -/
def lint (given : Json) : Except Failure (List Remark) :=
  match Document.read given with
  | .rejected findings => .ok (findings.map .schema)
  | .accepted d =>
    if d.requests.any RequestRule.hasLongIndex then .error (.misuse .badNumber)
    else .ok (Lint.document d)

end ResourceGraph
