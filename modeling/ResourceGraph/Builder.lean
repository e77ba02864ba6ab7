import ResourceGraph.IdentifierSource

/-!
Builders: how resources of one type are made from identifier sources. The sources need not cover
every identifier of the type; a single one left open is filled from the argument of the call. With a
load path the built resources also receive their data from the response.
-/

namespace ResourceGraph

/-- A resource type as builders refer to it. Types may gain identifiers later, so the reference says
only which type is meant and what it is called. -/
structure TypeRef where
  index : Nat
  name : String
  deriving DecidableEq, Repr

/-- A type together with the identifiers it declares at a moment. -/
structure TypeSignature where
  ref : TypeRef
  identifiers : List String
  deriving DecidableEq, Repr

/-- How resources of a type are built. -/
structure Builder where
  target : TypeRef
  sources : List IdentifierSource
  loadPath : Option String
  deriving DecidableEq, Repr

namespace Builder

/-- The name under which a built resource's data stands beside its identifiers. -/
def dataKey : String := "data"

/-- The sources completed with one for the argument, when exactly one identifier is left open. -/
def complete (type : TypeSignature) (sources : List IdentifierSource) :
    Except Failure (List IdentifierSource) :=
  let targets := sources.map IdentifierSource.target
  let unknown := targets.filter fun target => !type.identifiers.contains target
  let uncovered := type.identifiers.filter fun name => !targets.contains name
  if !unknown.isEmpty then
    .error (.definition (.unknownTargets type.ref.name unknown type.identifiers))
  else if 1 < uncovered.length then
    .error (.definition (.ambiguousBuilder type.ref.name uncovered))
  else .ok (sources ++ uncovered.map IdentifierSource.ofArgument)

/-- The source of the data, for a load path that is not empty. -/
def dataSource? (b : Builder) : Option IdentifierSource :=
  match b.loadPath with
  | some path => if path.isEmpty then none else some ⟨.responsePath, path, dataKey⟩
  | none => none

/-- All sources: those of the identifiers, then the one of the data. -/
def allSources (b : Builder) : List IdentifierSource := b.sources ++ b.dataSource?.toList

/-- Makes a builder for a type. -/
def make (type : Option TypeSignature) (sources : List IdentifierSource)
    (loadPath : Option String) : Except Failure Builder :=
  match type with
  | none => .error (.definition (.missingOption "resource_type"))
  | some t => do
    let completed ← complete t sources
    let builder : Builder := ⟨t.ref, completed, loadPath⟩
    if let some data := builder.dataSource? then
      let _ ← Path.compile data.source
    return builder

/-- The builder gives a list of resources. -/
def isPlural (b : Builder) : Bool := b.allSources.any IdentifierSource.isPlural

/-- The caller must pass an argument. -/
def requiresArgument (b : Builder) : Bool :=
  match b.sources.getLast? with
  | some source => source.kind == .argument
  | none => false

/-- Some source is only known once a response is there. -/
def readsResponse (b : Builder) : Bool := b.allSources.any fun source => source.kind.readsResponse

/-- The builder as messages show it. -/
def display (b : Builder) : String :=
  "Builder(" ++ b.target.name ++ ", sources=" ++
    Text.quotedList (b.sources.map IdentifierSource.target) ++ ", plural=" ++
    (if b.isPlural then "True" else "False") ++ ")"

end Builder

end ResourceGraph
