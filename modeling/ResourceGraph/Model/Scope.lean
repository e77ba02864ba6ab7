import ResourceGraph.Document.Basic
import ResourceGraph.Naming
import ResourceGraph.Operation

/-!
The names a rule may use: the types of the document, and the identifiers of the type that the rule
belongs to. Requests, builders and operations are made from rules here, and every name is looked up
as they are made, so a component that was made has nothing left to look up.
-/

namespace ResourceGraph

/-- Where an operation is attached: to the root or to the type at a place of the document. -/
inductive Site
  | root
  | resource (index : Nat)
  deriving DecidableEq, Repr

/-- The type a rule belongs to. -/
structure Owner where
  site : Site
  name : String
  identifiers : List String
  deriving DecidableEq, Repr

/-- A type of the document as the owner of rules. -/
def TypeSignature.owner (t : TypeSignature) : Owner :=
  ⟨.resource t.ref.index, t.ref.name, t.identifiers⟩

/-- The types that a document names. -/
abbrev Scope := Keyed TypeSignature

namespace Scope

open Naming

/-- A definition fault, as the outcome of making something. -/
def refuse {α : Type} (fault : DefinitionFault) : Except Failure α := .error (.definition fault)

/-- The type that a rule names. -/
def lookup (scope : Scope) (owner : Owner) (rule : String) (type : Option String) :
    Except Failure TypeSignature :=
  match type with
  | none => refuse (.unnamedType owner.name rule)
  | some name =>
    match Keyed.get? scope name with
    | some found => .ok found
    | none => refuse (.unknownType owner.name rule name)

/-- The source of a projection: the name of an identifier becomes one that the owner declares. -/
def given (owner : Owner) (operation : String) (rule : ParamRule) : Except Failure Json :=
  match rule.kind with
  | .identifier => do
    let text ← written rule.source rule.source.text
    let name := snakeCase text
    if owner.identifiers.contains name then return .str name
    else refuse (.unknownRequestIdentifier owner.name operation text)
  | _ => .ok rule.source

/-- One projection of a request. -/
def projection (owner : Owner) (operation : String) (rule : ParamRule) :
    Except Failure Projection := do
  Projection.make rule.target rule.kind (← given owner operation rule)

/-- The request of a rule. -/
def request (owner : Owner) (rule : RequestRule) : Except Failure Request := do
  Request.make (snakeCase rule.operation) (← rule.params.mapM (projection owner rule.operation))

/-- One identifier source of a builder. -/
def source (rule : SourceRule) : Except Failure IdentifierSource :=
  let name := match rule.kind with
    | .identifier => snakeCase rule.source
    | _ => rule.source
  IdentifierSource.make rule.kind name (snakeCase rule.target)

/-- The owner declares every identifier that the sources read. -/
def checkSources (owner : Owner) : List IdentifierSource → Except Failure Unit
  | [] => .ok ()
  | s :: rest =>
    if s.kind == .identifier && !owner.identifiers.contains s.source then
      refuse (.unknownSourceIdentifier owner.name s.source s.target)
    else checkSources owner rest

/-- The builder of a rule. -/
def builder (owner : Owner) (target : TypeSignature) (rule : BuildRule) :
    Except Failure Builder := do
  let sources ← rule.identifiers.mapM source
  checkSources owner sources
  Builder.make (some target) sources rule.path

/-- The builder of a reference, which has no response to read from. -/
def referenceBuilder (owner : Owner) (rule : String) (target : TypeSignature) (build : BuildRule) :
    Except Failure Builder := do
  let made ← builder owner target build
  if made.readsResponse then refuse (.referenceReadsResponse owner.name rule) else return made

/-- The operation of an action: resources where it builds them, else the value at its path, else the
response. What addresses a list is enumerated. -/
def action (scope : Scope) (owner : Owner) (name : String) (rule : ActionRule) :
    Except Failure Operation := do
  let call ← request owner rule.request
  match rule.resource, rule.path with
  | some build, _ =>
    let target ← lookup scope owner name build.type
    let made ← builder owner target build
    let kind : OperationKind := if made.isPlural then .enumerateResource else .resource
    Operation.make kind { request := some call, builder := some made }
  | none, some path =>
    let kind : OperationKind := if Path.isPlural path then .enumerateData else .data
    Operation.make kind { request := some call, path := some path }
  | none, none => Operation.make .basic { request := some call }

/-- The load operation of a type. -/
def load (owner : Owner) (rule : LoadRule) : Except Failure Operation := do
  Operation.make .load { request := some (← request owner rule.request), path := some rule.path }

/-- The enumeration of a plural association. -/
def enumeration (owner : Owner) (name : String) (target : TypeSignature) (rule : CallRule) :
    Except Failure Operation := do
  let made ← builder owner target rule.resource
  if made.isPlural then
    Operation.make .enumerateResource
      { request := some (← request owner rule.request), builder := some made }
  else refuse (.singularRule owner.name name)

/-- The creation of a member of a plural association. -/
def creation (owner : Owner) (target : TypeSignature) (rule : CallRule) :
    Except Failure Operation := do
  let call ← request owner rule.request
  let made ← builder owner target rule.resource
  Operation.make .resource { request := some call, builder := some made }

/-- A reference. -/
def reference (owner : Owner) (name : String) (target : TypeSignature) (rule : BuildRule) :
    Except Failure Operation := do
  Operation.make .reference { builder := some (← referenceBuilder owner name target rule) }

/-- A reference to a single resource. -/
def singleReference (owner : Owner) (name : String) (target : TypeSignature) (rule : BuildRule) :
    Except Failure Operation := do
  let made ← referenceBuilder owner name target rule
  if made.isPlural then refuse (.severalResources owner.name name)
  else Operation.make .reference { builder := some made }

end Scope

end ResourceGraph
