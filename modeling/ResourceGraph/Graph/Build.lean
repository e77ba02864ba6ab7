import ResourceGraph.Graph.Load

/-!
Building resources. Each source gives the value of its target, a later source of the same target
replacing an earlier one. A plural builder makes one resource for each place of its longest list; a
list that is shorter gives null there, and when one of the lists is empty, or is no list at all,
nothing is built.
-/

namespace ResourceGraph

namespace Builder

/-- The targets whose values are lists with an element for each resource. -/
def pluralTargets (b : Builder) : List String :=
  (b.allSources.filter IdentifierSource.isPlural).map IdentifierSource.target

/-- The elements of a list; nothing else has any. -/
def elements (opened : Datum → Datum) (v : Datum) : List Datum :=
  match opened v with
  | .list items => items
  | _ => []

/-- The elements of the value of a target. -/
def elementsFor (opened : Datum → Datum) (values : Keyed Datum) (target : String) : List Datum :=
  elements opened ((Keyed.get? values target).getD .null)

/-- The values for the resource at a place: an element of each plural value, and the others whole. -/
def row (opened : Datum → Datum) (plural : List String) (values : Keyed Datum) (place : Nat) :
    Keyed Datum :=
  values.map fun (target, value) =>
    if plural.contains target then (target, (elements opened value)[place]?.getD .null)
    else (target, value)

/-- The values for each resource of a plural builder. -/
def rows (opened : Datum → Datum) (plural : List String) (values : Keyed Datum) :
    List (Keyed Datum) :=
  let lengths := plural.map fun target => (elementsFor opened values target).length
  if lengths.contains 0 then []
  else (List.range (lengths.foldl max 0)).map (row opened plural values)

end Builder

namespace Act

/-- The value of a parameter that was sent, null if it was not. -/
def sentParameter (response : Response) (name : String) : Act Datum := do
  let params ← opened response.params
  match params.entries? with
  | some _ => return (params.member? name).getD .null
  | none => misuse .unknownAttribute

/-- The value that a source gives. -/
def extract (context : Context) (s : IdentifierSource) : Act Datum := do
  match s.kind, context.response with
  | .argument, _ =>
    match context.argument with
    | .null => fail (.missingArgument s.target)
    | v => return v
  | .identifier, _ =>
    match Keyed.get? (← callerOf context).identifiers s.source with
    | some v => return v
    | none => misuse .missingKey
  | .dataMember, _ =>
    match context.caller with
    | some id => do search s.source (← data id)
    | none => misuse .noCaller
  | .requestParameter, some response => sentParameter response s.source
  | .responsePath, some response => search s.source response.data
  | kind, none => fail (.definition (.needsResponse kind.name s.target))

/-- The values of all sources, by target. -/
def extractAll (b : Builder) (context : Context) : Act (Keyed Datum) :=
  b.allSources.foldlM
    (fun values s => do return Keyed.put values s.target (← extract context s)) []

/-- Builds one resource, with the client of the caller. -/
def buildOne (b : Builder) (context : Context) (values : Keyed Datum) : Act ResourceId := do
  let caller ← callerOf context
  let id ← construct b.target [] (Keyed.erase values Builder.dataKey) (some caller.client) none
  match Keyed.get? values Builder.dataKey with
  | some data => setData id data
  | none => pure ()
  return id

/-- A serial for a list that is built. -/
def newList : Act Nat := modifyGet fun g => (g.lists, { g with lists := g.lists + 1 })

/-- Builds what a builder gives. -/
def build (b : Builder) (context : Context) : Act Built := do
  let values ← extractAll b context
  if b.isPlural then
    let rows := Builder.rows (← get).store.opened b.pluralTargets values
    let members ← rows.mapM (buildOne b context)
    return .several (← newList) members
  else return .one (← buildOne b context values)

end Act

end ResourceGraph
