import ResourceGraph.Graph.Basic

/-!
Making resources. Every identifier that the type declares is given a value that is not null, and
nothing else is given; a single value may be given without its name when there is only one
identifier to take it. A resource without a client of its own gets the one of its type.
-/

namespace ResourceGraph

namespace ResourceType

/-- An identifier fault, as the outcome of making a resource. -/
def refuseIdentifiers {α : Type} (f : IdentifierFault) : Except Failure α := .error (.identifier f)

/-- Names that the call itself has a use for, and that no identifier can be given by. -/
def unusableNames : List String := ["self", "client", "data"]

/-- The named values together with the ones that were given without a name. -/
def placed (t : ResourceType) (unnamed : List Datum) (named : Keyed Datum) :
    Except Failure (Keyed Datum) :=
  if unusableNames.any (Keyed.has named) then .error (.misuse .wrongArguments)
  else
    match unnamed with
    | [] => .ok named
    | value :: more =>
      match t.identifiers, more with
      | [name], [] =>
        if Keyed.has named name then refuseIdentifiers (.givenTwice name)
        else .ok (named ++ [(name, value)])
      | _, _ => refuseIdentifiers (.byNameOnly t.name t.identifiers)

/-- The value given for one identifier; null counts as none. -/
def valueFor (t : ResourceType) (given : Keyed Datum) (name : String) :
    Except Failure (String × Datum) :=
  match Keyed.get? given name with
  | none | some .null => refuseIdentifiers (.missing t.name name)
  | some value => .ok (name, value)

/-- The identifiers of a resource of the type, in declared order. -/
def identify (t : ResourceType) (given : Keyed Datum) : Except Failure (Keyed Datum) :=
  let unexpected := (Keyed.keys given).filter fun name => !t.identifiers.contains name
  if Keyed.has given "self" || Keyed.has given "resource_type" then .error (.misuse .wrongArguments)
  else if !unexpected.isEmpty then
    refuseIdentifiers (.unexpected t.name unexpected t.identifiers)
  else t.identifiers.mapM (t.valueFor given)

/-- The client of a resource: the given one, else the one of its type. -/
def clientFor (t : ResourceType) (given : Option ClientId) : Except Failure ClientId :=
  match given, t.factory with
  | some client, _ => .ok client
  | none, some client => .ok client
  | none, none => .error (.noClient t.name)

end ResourceType

namespace Act

/-- Adds a resource to the graph. -/
def add (r : Resource) : Act ResourceId :=
  modifyGet fun g => (g.resources.size, { g with resources := g.resources.push r })

/-- Makes a resource from named identifiers. -/
def makeResource (ref : TypeRef) (given : Keyed Datum) (client : Option ClientId)
    (data : Option Datum) : Act ResourceId := do
  let type ← typeOf ref
  let identifiers ← lift (type.identify given)
  let client ← lift (type.clientFor client)
  add { type := ref, identifiers, client, data }

/-- Calls a type to make a resource, from values with and without names. -/
def construct (ref : TypeRef) (unnamed : List Datum) (named : Keyed Datum)
    (client : Option ClientId) (data : Option Datum) : Act ResourceId := do
  let type ← typeOf ref
  makeResource ref (← lift (type.placed unnamed named)) client data

/-- Gives a resource its data. From now on it counts as loaded, whatever the data is. -/
def setData (id : ResourceId) (data : Datum) : Act Unit :=
  changeResource id fun r => { r with data := some data }

end Act

end ResourceGraph
