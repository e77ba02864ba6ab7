import ResourceGraph.Model.Scope

/-!
The plan of a document: what it attaches where, in the order that decides both the place of an
operation among the others and which of several faults is found first. Loads come before everything
else, then the rules of the service and of each type, then the references between parents and
children.
-/

namespace ResourceGraph

/-- What is attached to a type. -/
inductive Attachment
  | load (operation : Operation)
  | operation (name : String) (operation : Operation)
  deriving DecidableEq

/-- One step of a plan: the type, and what is attached to it, or why that cannot be made. -/
structure Step where
  site : Site
  attachment : Except Failure Attachment

namespace Plan

open Naming

/-- A step that attaches an operation under a name. -/
def named (owner : Owner) (name : String) (made : Except Failure Operation) : Step :=
  ⟨owner.site, made.map (.operation name)⟩

/-- A step that cannot be taken. -/
def stop (owner : Owner) (fault : Failure) : Step := ⟨owner.site, .error fault⟩

/-- The load of a type. -/
def load (owner : Owner) (rule : LoadRule) : Step :=
  ⟨owner.site, (Scope.load owner rule).map .load⟩

/-- What a plural association attaches under its singular name. -/
def singularSteps (owner : Owner) (name : String) (target : TypeSignature) (rule : HasManyRule) :
    List Step :=
  if rule.create.isNone && rule.resource.isNone then []
  else
    match singular? (snakeCase name) with
    | none => [stop owner (.definition (.noSingular owner.name name))]
    | some singular =>
      (rule.create.toList.map fun create =>
        named owner ("create_" ++ singular) (Scope.creation owner target create)) ++
      (rule.resource.toList.map fun build =>
        named owner singular (Scope.reference owner name target build))

/-- What a plural association attaches: its enumeration, the creation of a member, and the reference
to one by its key. -/
def hasMany (scope : Scope) (owner : Owner) (name : String) (rule : HasManyRule) : List Step :=
  match scope.lookup owner name (some rule.type) with
  | .error fault => [stop owner fault]
  | .ok target =>
    (rule.enumerate.toList.map fun call =>
      named owner (snakeCase name) (Scope.enumeration owner name target call)) ++
    singularSteps owner name target rule

/-- A reference that may give several resources. -/
def hasSome (scope : Scope) (owner : Owner) (name : String) (rule : AssociationRule) : Step :=
  named owner (snakeCase name) do
    Scope.reference owner name (← scope.lookup owner name (some rule.type)) rule.resource

/-- A reference to one resource. -/
def hasOne (scope : Scope) (owner : Owner) (name : String) (rule : AssociationRule) : Step :=
  named owner (snakeCase name) do
    Scope.singleReference owner name (← scope.lookup owner name (some rule.type)) rule.resource

/-- The rules of one container, kind by kind. -/
def container (scope : Scope) (owner : Owner) (rules : ContainerRules) : List Step :=
  (rules.actions.map fun (name, rule) =>
    named owner (snakeCase name) (scope.action owner name rule)) ++
  (rules.hasMany.flatMap fun (name, rule) => hasMany scope owner name rule) ++
  (rules.hasSome.map fun (name, rule) => hasSome scope owner name rule) ++
  (rules.hasOne.map fun (name, rule) => hasOne scope owner name rule)

/-- The identifiers that children share with their parent: each of the parent's with the child's. -/
def sharedIdentifiers (rule : SubResourcesRule) : Keyed String :=
  Keyed.ofList (rule.identifiers.map fun (parent, child) => (snakeCase parent, snakeCase child))

/-- Sources that read identifiers `from` of one type into identifiers `to` of the other. -/
def identifierSources (pairs : List (String × String)) : List IdentifierSource :=
  pairs.map fun (own, target) => ⟨.identifier, own, target⟩

/-- A reference that takes what it can from identifiers. -/
def related (target : TypeSignature) (sources : List IdentifierSource) :
    Except Failure Operation := do
  Operation.make .reference { builder := some (← Builder.make (some target) sources none) }

/-- The references from a parent to one of its children and back. -/
def child (scope : Scope) (parent : TypeSignature) (shared : Keyed String) (name : String) :
    List Step :=
  match scope.lookup parent.owner "subResources" (some name) with
  | .error fault => [stop parent.owner fault]
  | .ok child =>
    let down := identifierSources shared
    let up := identifierSources (shared.map Prod.swap)
    let downward : Except Failure Operation := do
      Scope.checkSources parent.owner down
      Scope.checkSources child.owner up
      related child down
    [named parent.owner (snakeCase (withoutParent name parent.ref.name)) downward,
      named child.owner (snakeCase parent.ref.name) (related parent up)]

/-- The references between a parent and its children. -/
def children (scope : Scope) (parent : TypeSignature) (rule : SubResourcesRule) : List Step :=
  rule.resources.flatMap (child scope parent (sharedIdentifiers rule))

/-- The whole plan. Rules and types are given side by side, in the order of the document. -/
def ofDocument (d : Document) (service : String) (scope : Scope) : List Step :=
  let types := scope.map Prod.snd
  let rules := d.resources.map Prod.snd
  let sides := types.zip rules
  (sides.flatMap fun (type, rule) => rule.load.toList.map (load type.owner)) ++
  container scope ⟨.root, service, []⟩ d.service ++
  (sides.flatMap fun (type, rule) => container scope type.owner rule.container) ++
  (sides.flatMap fun (type, rule) => rule.subResources.toList.flatMap (children scope type))

end Plan

end ResourceGraph
