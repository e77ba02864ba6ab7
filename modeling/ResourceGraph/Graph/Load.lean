import ResourceGraph.Graph.Call
import ResourceGraph.Graph.Construct

/-!
Requests and the data of resources. The parameters of a request start from a copy of the caller's,
and each projection writes its value into them in turn; a projection of a part of the data reads the
data of the calling resource, which is loaded first if it is not there. A load whose own request
reads data that is not there begins another load in this way, and that one another. Lines for the
log are left out here, with all that writing them takes.
-/

namespace ResourceGraph

/-- The caller sees this failure as a missing attribute. -/
def Failure.isMissingAttribute : Failure → Bool
  | .unknownOperation .. | .unknownMethod .. => true
  | .write .noEnd | .write .noLookup => true
  | .misuse .unknownAttribute | .misuse .noCaller => true
  | _ => false

namespace Act

/-- The text that a projection gives as a path, if it is one. Nothing empty is an expression, and
what is no text cannot be read as one. -/
def pathText (given : Json) : Except Failure String :=
  match given with
  | .str s => .ok s
  | .list _ | .object _ => .error (.misuse .unhashable)
  | v => .error (if v.isEmpty then .definition (.invalidPath v.display) else .misuse .wrongType)

/-- The value of a projection, given how the data of its caller is read. -/
def project (read : ResourceId → Act Datum) (caller : Option ResourceId) (p : Projection) :
    Act Datum := do
  match p.source, caller with
  | .text s, _ => return .str s
  | .integer n, _ => return .int n
  | .flag b, _ => return .bool b
  | _, none => fail (.definition (.readsNoResource p.target.expression))
  | .identifier (.str name), some id =>
    match Keyed.get? (← resource id).identifiers name with
    | some v => return v
    | none => misuse .missingKey
  | .identifier (.list _), some _ | .identifier (.object _), some _ => misuse .unhashable
  | .identifier _, some _ => misuse .missingKey
  | .dataMember path, some id => do
    let data ← read id
    search (← lift (pathText path)) data

/-- Writes the value of a projection into parameters. -/
def apply (read : ResourceId → Act Datum) (caller : Option ResourceId)
    (params : List (String × Datum)) (p : Projection) : Act (List (String × Datum)) := do
  let value ← project read caller p
  let edited ← onStore (Store.write p.target.address value params)
  match edited.fault with
  | none => return edited.after
  | some fault => fail (.write fault)

/-- A copy of the caller's parameters; nothing that is empty has entries. The entries whose keys are
no texts stand apart, because no projection reaches them. -/
def copyParams (given : Json) : Except Failure (Keyed Datum × List (Datum × Datum)) :=
  if given.isEmpty then .ok ([], [])
  else
    match Value.entries id given with
    | .error fault => .error (entriesFailure fault)
    | .ok entries =>
      let (named, others) := splitEntries (((Value.ofEntries entries).entries?).getD [])
      .ok (named.map fun (key, v) => (key, Value.ofJson v),
        others.map fun (key, v) => (Value.ofJson key, Value.ofJson v))

/-- The parameters of a request. -/
def buildParams (read : ResourceId → Act Datum) (request : Request) (context : Context) :
    Act Datum := do
  let (start, others) ← lift (copyParams context.params)
  let built ← request.params.foldlM (apply read context.caller) start
  if others.isEmpty then share (.object built)
  else share (.table (built.map (fun (key, v) => (.str key, v)) ++ others))

/-- Makes the single call of a request. -/
def sendRequest (read : ResourceId → Act Datum) (request : Request) (context : Context) :
    Act Response := do
  let params ← buildParams read request context
  let caller ← callerOf context
  call caller.client request.method params

/-- The data of a resource that has some, else what another action gives. -/
def cachedOr (otherwise : Act Datum) (id : ResourceId) : Act Datum := do
  match (← resource id).data with
  | some data => return data
  | none => otherwise

/-- Does the work of a load: the data becomes the value at the path of the response. -/
def runLoad (read : ResourceId → Act Datum) (request : Request) (path : String)
    (context : Context) : Act Unit := do
  let response ← sendRequest read request context
  let data ← search path response.data
  match context.caller with
  | some id => setData id data
  | none => misuse .noCaller

/-- Loads the data of a resource with one call, whether or not there is some already, where
projections read data as given. -/
def loadBy (read : ResourceId → Act Datum) (id : ResourceId) (params : Json) : Act Unit := do
  let type ← typeOf (← resource id).type
  match type.load.map Operation.work with
  | some (.load request path) => runLoad read request path { caller := some id, params }
  | _ => fail (.loadNotSupported type.name)

/-- The data after it was loaded, where projections read data as given. When loading fails because
something has no such attribute, the resource is taken to have no attribute for its data either. -/
def loadedBy (read : ResourceId → Act Datum) (id : ResourceId) : Act Datum := do
  try
    loadBy read id .null
    cachedOr (return .null) id
  catch failure =>
    if failure.isMissingAttribute then
      fail (.unknownOperation "data" (some (← resource id).type.name))
    else fail failure

/-- The data of a resource, loaded first if it is not there, where at most so many loads lie inside
each other. -/
def dataWithin : Nat → ResourceId → Act Datum
  | 0, id => cachedOr (misuse .endless) id
  | depth + 1, id => cachedOr (loadedBy (dataWithin depth) id) id

/-- How many loads may lie inside another. -/
def nestedLoads : Nat := 140

/-- Loads the data of a resource with one call, whether or not there is some already. A projection
that reads data which is not there begins a load inside this one. -/
def load (id : ResourceId) (params : Json) : Act Unit := loadBy (dataWithin nestedLoads) id params

/-- The data after it was loaded. -/
def loadedData (id : ResourceId) : Act Datum := loadedBy (dataWithin nestedLoads) id

/-- The data of a resource, loaded first if it is not there. -/
def data (id : ResourceId) : Act Datum := cachedOr (loadedData id) id

end Act

end ResourceGraph
