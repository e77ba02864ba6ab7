import ResourceGraph.Graph.Enumerate

/-!
Using a resource by name. A name stands for something that every resource has, for an identifier, or
for an operation of the type, in this order. Names that start with an underscore stand for what a
resource holds already, and nothing is loaded for them; all other such names stand for nothing.
Operations can be called through their name or invoked directly, which comes to the same.
-/

namespace ResourceGraph

/-- What a name of a resource stands for. -/
inductive Attribute
  | value (v : Datum)
  | client (id : ClientId)
  | type (ref : TypeRef)
  | references (kept : Keyed Built)
  /-- The operation to load data, under either of its names. -/
  | load
  /-- The operation to invoke others by name. -/
  | invoke
  | operation (o : Operation)
  deriving DecidableEq

namespace Act

/-- Reads what a name stands for. -/
def readAttribute (id : ResourceId) (name : String) : Act Attribute := do
  let r ← resource id
  match name with
  | "client" | "_client" =>
    match ← client r.client with
    | .standIn v => return .value v
    | _ => return .client r.client
  | "data" => return .value (← data id)
  | "_data" => return .value (r.data.getD .null)
  | "data_loaded" | "_data_loaded" => return .value (.bool r.data.isSome)
  | "identifiers" | "_identifiers" => return .value (.object r.identifiers)
  | "_references" => return .references r.references
  | "invoke" => return .invoke
  | "load" | "reload" => return .load
  | "resource_type" | "_type" => return .type r.type
  | _ =>
    if name.toList.head? == some '_' then misuse .unknownAttribute
    else
      match Keyed.get? r.identifiers name with
      | some v => return .value v
      | none => return .operation (← lift ((← typeOf r.type).operation name))

/-- What is read is there. Only the failure that it is not there makes this false; other failures
stay failures. -/
def isThere {α : Type} (reading : Act α) : Act Bool := do
  try
    let _ ← reading
    return true
  catch failure => if failure.isMissingAttribute then return false else fail failure

/-- The caller's parameters: a map, and values by name that replace those of the map. -/
def mergeParams (given : Json) (named : Keyed Json) : Except Failure Json :=
  match given with
  | .object fields => .ok (.object (Keyed.merge fields named))
  | v =>
    if !v.isEmpty then .error (.misuse .notAMapping)
    else if named.isEmpty then .ok .null
    else .ok (.object named)

/-- The parameters of a call that takes at most one value without a name. -/
def callParams : List Json → Keyed Json → Except Failure Json
  | [], named => mergeParams .null named
  | [given], named => mergeParams given named
  | _, _ => .error (.misuse .wrongArguments)

/-- The argument of a call that takes exactly one. -/
def callArgument : List Json → Keyed Json → Except Failure Json
  | [given], [] | [], [("argument", given)] => .ok given
  | _, _ => .error (.misuse .wrongArguments)

/-- The result of a reference without argument, built the first time and kept from then on. -/
def keptReference (id : ResourceId) (name : String) (builder : Builder) : Act Built := do
  match Keyed.get? (← resource id).references name with
  | some built => return built
  | none => do
    let built ← build builder { caller := some id }
    changeResource id fun r => { r with references := Keyed.put r.references name built }
    return built

/-- Calls an operation under a name. -/
def callOperation (id : ResourceId) (name : String) (o : Operation) (unnamed : List Json)
    (named : Keyed Json) : Act Outcome := do
  match o.work with
  | .reference builder =>
    if builder.requiresArgument then
      let argument ← receive (← lift (callArgument unnamed named))
      return .built (← build builder { caller := some id, argument })
    else if unnamed.isEmpty && named.isEmpty then return .built (← keptReference id name builder)
    else misuse .wrongArguments
  | _ => invoke o { caller := some id, params := ← lift (callParams unnamed named) }

/-- Loads a resource. -/
def callLoad (id : ResourceId) (unnamed : List Json) (named : Keyed Json) : Act Outcome := do
  if 1 < unnamed.length then misuse .wrongArguments
  else
    let type ← typeOf (← resource id).type
    if type.load.isNone then fail (.loadNotSupported type.name)
    else
      load id (← lift (callParams unnamed named))
      return .built (.one id)

/-- The operation that something given as a name stands for. What is no text is the name of none. -/
def operationOf (type : ResourceType) (given : Json) : Except Failure Operation :=
  match given with
  | .str name => type.operation name
  | v =>
    if v.isContainer then .error (.misuse .unhashable)
    else do .error (.unknownOperation (← written v v.text) (some type.name))

/-- Invokes an operation of a resource by its name. -/
def invokeNamed (id : ResourceId) (name : Json) (unnamed : List Json) (named : Keyed Json) :
    Act Outcome := do
  if Keyed.has named "self" || Keyed.has named "name" then misuse .wrongArguments
  else
    let operation ← lift (operationOf (← typeOf (← resource id).type) name)
    callOperation id name.text operation unnamed named

/-- The name to invoke, given as the first value or by name. -/
def invokedName (unnamed : List Json) (named : Keyed Json) :
    Except Failure (Json × List Json × Keyed Json) :=
  match unnamed, Keyed.get? named "name" with
  | name :: rest, none => .ok (name, rest, named)
  | [], some name => .ok (name, [], Keyed.erase named "name")
  | _, _ => .error (.misuse .wrongArguments)

/-- Something given in the place of a client; null is none. -/
def receiveClient (given : Json) : Act (Option ClientId) := do
  match given with
  | .null => return none
  | v => do
    let value ← receive v
    modifyGet fun g => (some g.clients.size, { g with clients := g.clients.push (.standIn value) })

/-- Data from outside; null is none. -/
def receiveData (given : Json) : Act (Option Datum) := do
  match given with
  | .null => return none
  | v => return some (← receive v)

/-- Calls a type with values from outside. Two names are those of the client and the data. -/
def callType (ref : TypeRef) (unnamed : List Json) (named : Keyed Json) : Act ResourceId := do
  let values ← unnamed.mapM receive
  let others := Keyed.erase (Keyed.erase named "client") "data"
  let members ← others.mapM fun (key, v) => do return (key, ← receive v)
  let type ← typeOf ref
  let placed ← lift (type.placed values members)
  let data ← receiveData ((Keyed.get? named "data").getD .null)
  makeResource ref placed (← receiveClient ((Keyed.get? named "client").getD .null)) data

/-- Calls what a name stands for. -/
def callNamed (id : ResourceId) (name : String) (unnamed : List Json) (named : Keyed Json) :
    Act Outcome := do
  match ← readAttribute id name with
  | .operation o => callOperation id name o unnamed named
  | .load => callLoad id unnamed named
  | .invoke => do
    let (given, rest, others) ← lift (invokedName unnamed named)
    invokeNamed id given rest others
  | .type ref => do return .built (.one (← callType ref unnamed named))
  | .value _ | .client _ | .references _ => misuse .notCallable

/-- What the accessors of its type read of a resource, each under its name. -/
def declaredIdentifiers (id : ResourceId) : Act (Keyed Datum) := do
  let r ← resource id
  (← typeOf r.type).accessors.mapM fun (name, identifier) =>
    match Keyed.get? r.identifiers identifier with
    | some v => return (name, v)
    | none => misuse .missingKey

/-- The names that a resource can be used by, in order. -/
def names (id : ResourceId) : Act (List String) := do
  let r ← resource id
  let type ← typeOf r.type
  let all := reservedNames ++ Keyed.keys r.identifiers ++ type.operationNames
  let seen := all.filter fun name => name.toList.head? != some '_'
  return seen.eraseDups.mergeSort fun a b => decide (a ≤ b)

end Act

end ResourceGraph
