import ResourceGraph.Document.Basic
import ResourceGraph.Document.Finding

/-!
Reading definition documents. Every object must have the keys its rule requires and no others; keys
with a capital inside may also be written with an underscore, and where both are there the first
form counts and the other is unknown. All findings are gathered: those of the declared keys in their
order, then the unknown keys in the order of the document.
-/

namespace ResourceGraph

open Checked

namespace Check

variable {α : Type}

/-- A key of a rule: as documents write it, and its other form. -/
structure Key where
  wire : String
  other : String

/-- A key with one form only. -/
def key (name : String) : Key := ⟨name, name⟩

/-- The form in which an object has the key. -/
def Key.formIn? (k : Key) (fields : Keyed Json) : Option String :=
  if Keyed.has fields k.wire then some k.wire
  else if Keyed.has fields k.other then some k.other
  else none

/-- The value of a key and the form it was found under. -/
def Key.find? (k : Key) (fields : Keyed Json) : Option (String × Json) :=
  (k.formIn? fields).bind fun form => (Keyed.get? fields form).map (form, ·)

/-- The part under a key that must be there. -/
def required (fields : Keyed Json) (k : Key) (check : Json → Checked α) : Checked α :=
  match k.find? fields with
  | some (form, value) => under form (check value)
  | none => under k.wire (reject .required)

/-- The part under a key that may be missing. -/
def optional (fields : Keyed Json) (k : Key) (absent : α) (check : Json → Checked α) : Checked α :=
  match k.find? fields with
  | some (form, value) => under form (check value)
  | none => accepted absent

/-- The keys of an object that none of the declared ones is found under. -/
def unknownKeys (keys : List Key) (fields : Keyed Json) : List String :=
  (Keyed.keys fields).filter fun name => !keys.any fun k => k.formIn? fields == some name

/-- An object with certain keys. -/
def model (name : String) (keys : List Key) (read : Keyed Json → Checked α) (given : Json) :
    Checked α :=
  match given with
  | .object fields =>
    withFindings ((unknownKeys keys fields).map fun unknown => ⟨[unknown], .unknownKey⟩) (read fields)
  | _ => reject (.notAModel name)

/-- A text. -/
def string : Json → Checked String
  | .str s => accepted s
  | _ => reject .notText

/-- Null, or what the check accepts. -/
def nullable (check : Json → Checked α) (given : Json) : Checked (Option α) :=
  match given with
  | .null => accepted none
  | value => (check value).map some

/-- The elements of a list from a place on. -/
def itemsFrom (check : Json → Checked α) : Nat → List Json → Checked (List α)
  | _, [] => accepted []
  | place, item :: rest =>
    List.cons <$> under (toString place) (check item) <*> itemsFrom check (place + 1) rest

/-- A list. -/
def list (check : Json → Checked α) : Json → Checked (List α)
  | .list items => itemsFrom check 0 items
  | _ => reject .notAList

/-- The entries of a map. -/
def entries (check : Json → Checked α) : List (String × Json) → Checked (Keyed α)
  | [] => accepted []
  | (name, value) :: rest =>
    (fun a others => (name, a) :: others) <$> under name (check value) <*> entries check rest

/-- A map whose keys are names. -/
def map (check : Json → Checked α) : Json → Checked (Keyed α)
  | .object fields => entries check fields
  | _ => reject .notAMap

/-- A name out of a list of alternatives. -/
def oneOf (names : List (String × α)) (given : Json) : Checked α :=
  let refused : Checked α := reject (.notOneOf (names.map Prod.fst))
  match given with
  | .str s =>
    match names.lookup s with
    | some a => accepted a
    | none => refused
  | _ => refused

/-- The findings about a source that is no text, no whole number and no truth value. -/
def sourceRefused (whole : Problem) : Checked Json :=
  rejected [⟨["str"], .notText⟩, ⟨["int"], whole⟩, ⟨["bool"], .notATruthValue⟩]

/-- A projection's source: a text, a whole number or a truth value as it is; a float without a
fraction counts as the whole number. -/
def paramSource (given : Json) : Checked Json :=
  match given with
  | .str _ | .int _ | .bool _ => accepted given
  | .float x =>
    let number := Number.Binary.ofFloat x
    match number.truncate? with
    | none => sourceRefused .notFinite
    | some n =>
      if !number.isWhole then sourceRefused .fractional
      else if n.natAbs < Number.twoTo 63 then accepted (.int n)
      else sourceRefused .outsideRange
  | _ => sourceRefused .notWhole

/-- A projection. -/
def param : Json → Checked ParamRule :=
  let kind : Key := ⟨"sourceType", "source_type"⟩
  model "ParamDefinition" [key "target", kind, key "source"] fun fields =>
    ParamRule.mk <$> required fields (key "target") string
      <*> required fields kind (oneOf (ProjectionKind.all.map fun k => (k.name, k)))
      <*> required fields (key "source") paramSource

/-- A request. -/
def request : Json → Checked RequestRule :=
  model "RequestDefinition" [key "operation", key "params"] fun fields =>
    RequestRule.mk <$> required fields (key "operation") string
      <*> optional fields (key "params") [] (list param)

/-- An identifier source. -/
def source : Json → Checked SourceRule :=
  let kind : Key := ⟨"sourceType", "source_type"⟩
  model "IdentifierSourceDefinition" [key "target", kind, key "source"] fun fields =>
    SourceRule.mk <$> required fields (key "target") string
      <*> required fields kind (oneOf (SourceKind.declarable.map fun k => (k.name, k)))
      <*> required fields (key "source") string

/-- How resources are built. -/
def build : Json → Checked BuildRule :=
  model "ResourceRefDefinition" [key "type", key "identifiers", key "path"] fun fields =>
    BuildRule.mk <$> optional fields (key "type") none (nullable string)
      <*> optional fields (key "identifiers") [] (list source)
      <*> optional fields (key "path") none (nullable string)

/-- A load rule. -/
def load : Json → Checked LoadRule :=
  model "LoadDefinition" [key "request", key "path"] fun fields =>
    LoadRule.mk <$> required fields (key "request") request <*> required fields (key "path") string

/-- An action gives the value at a path or resources, not both, and says of which type they are. -/
def actionShape (a : ActionRule) : Checked ActionRule :=
  match a.path, a.resource with
  | some _, some _ =>
    reject (.refused "an action may declare 'path' or 'resource', not both")
  | none, some r =>
    if r.type.isNone then reject (.refused "an action resource must declare its 'type'")
    else accepted a
  | _, none => accepted a

/-- An action. -/
def action (given : Json) : Checked ActionRule :=
  (model "ActionDefinition" [key "request", key "path", key "resource"] (fun fields =>
    ActionRule.mk <$> required fields (key "request") request
      <*> optional fields (key "path") none (nullable string)
      <*> optional fields (key "resource") none (nullable build)) given).andThen actionShape

/-- A call whose response resources are built from. -/
def call : Json → Checked CallRule :=
  model "RequestWithResourceDefinition" [key "request", key "resource"] fun fields =>
    CallRule.mk <$> required fields (key "request") request
      <*> optional fields (key "resource") {} build

/-- A plural association. -/
def hasMany : Json → Checked HasManyRule :=
  model "HasManyDefinition" [key "type", key "enumerate", key "create", key "resource"] fun fields =>
    HasManyRule.mk <$> required fields (key "type") string
      <*> optional fields (key "enumerate") none (nullable call)
      <*> optional fields (key "create") none (nullable call)
      <*> optional fields (key "resource") none (nullable build)

/-- A reference without a key. -/
def association : Json → Checked AssociationRule :=
  model "AssociationDefinition" [key "type", key "resource"] fun fields =>
    AssociationRule.mk <$> required fields (key "type") string
      <*> optional fields (key "resource") {} build

/-- Child types. -/
def subResources : Json → Checked SubResourcesRule :=
  model "SubResourcesDefinition" [key "resources", key "identifiers"] fun fields =>
    SubResourcesRule.mk <$> required fields (key "resources") (list string)
      <*> required fields (key "identifiers") (map string)

/-- The keys that a service and a resource have in common. -/
def containerKeys : List Key :=
  [key "actions", ⟨"hasMany", "has_many"⟩, ⟨"hasSome", "has_some"⟩, ⟨"hasOne", "has_one"⟩]

/-- The rules that a service and a resource have in common. -/
def containerRules (fields : Keyed Json) : Checked ContainerRules :=
  ContainerRules.mk <$> optional fields (key "actions") [] (map action)
    <*> optional fields ⟨"hasMany", "has_many"⟩ [] (map hasMany)
    <*> optional fields ⟨"hasSome", "has_some"⟩ [] (map association)
    <*> optional fields ⟨"hasOne", "has_one"⟩ [] (map association)

/-- The rules of the service. -/
def container : Json → Checked ContainerRules :=
  model "ContainerDefinition" containerKeys containerRules

/-- An identifier may be written as an object with a name; only the name counts. -/
def identifierName (given : Json) : Json :=
  match given with
  | .object fields => (Keyed.get? fields "name").getD given
  | _ => given

/-- The names of identifiers. -/
def identifiers (given : Json) : Checked (List String) :=
  match given with
  | .list items => itemsFrom string 0 (items.map identifierName)
  | _ => reject .notAList

/-- The rules of one resource type. -/
def resource : Json → Checked ResourceRules :=
  let sub : Key := ⟨"subResources", "sub_resources"⟩
  model "ResourceDefinition" (containerKeys ++ [key "identifiers", key "shape", key "load", sub])
    fun fields =>
      ResourceRules.mk <$> containerRules fields
        <*> optional fields (key "identifiers") [] identifiers
        <*> optional fields (key "shape") none (nullable string)
        <*> optional fields (key "load") none (nullable load)
        <*> optional fields sub none (nullable subResources)

/-- A whole document. -/
def document : Json → Checked Document :=
  model "ServiceDefinition" [key "service", key "resources"] fun fields =>
    Document.mk <$> optional fields (key "service") {} container
      <*> optional fields (key "resources") [] (map resource)

end Check

/-- Reads a document, with everything that does not fit when it is none. -/
def Document.read (given : Json) : Checked Document := Check.document given

end ResourceGraph
