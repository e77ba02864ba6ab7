import ResourceGraph.Client.Basic
import ResourceGraph.Json.Body
import ResourceGraph.ResourceType
import ResourceGraph.Store.Write

/-!
The graph: resources, the types they are of, the clients they call, and the enumerations that are
under way. Everything done to it is an action, which changes the graph and gives a result or a
failure; what an action changed before it failed stays changed.
-/

namespace ResourceGraph

/-- A resource of a graph, by its place. -/
abbrev ResourceId := Nat

/-- A client of a graph, by its place. -/
abbrev ClientId := Nat

/-- An enumeration of a graph, by its place. -/
abbrev EnumerationId := Nat

/-- What a builder gives: one resource, or a list of resources. Each list that is built has a serial
of its own, which tells it from other lists of the same resources. -/
inductive Built
  | one (resource : ResourceId)
  | several (serial : Nat) (members : List ResourceId)
  deriving DecidableEq, Repr

/-- One API object: its type, its identifiers in declared order, the client it calls, its data once
it is loaded, and the references that were built and kept. There always is a client: what is given
in its place is not null, and neither is what a factory gives. -/
structure Resource where
  type : TypeRef
  identifiers : Keyed Datum
  client : ClientId
  data : Option Datum := none
  references : Keyed Built := []
  deriving DecidableEq

/-- What an operation is invoked with. -/
structure Context where
  caller : Option ResourceId
  params : Json := .null
  argument : Datum := .null
  response : Option Response := none
  deriving DecidableEq

/-- Where a paginated call stands. -/
inductive Pages
  /-- The call has not been made. -/
  | unasked
  /-- Prepared replies are left. -/
  | prepared (left : List Reply)
  /-- The next request depends on the page before it. -/
  | after (route : Route) (page : Response)
  deriving DecidableEq

/-- A paginated call of a client. -/
structure Paging where
  client : ClientId
  method : String
  params : Datum
  pages : Pages := .unasked
  deriving DecidableEq

/-- What each page of an enumeration contributes. -/
inductive Harvest
  | values (path : String)
  | resources (builder : Builder)
  | responses
  deriving DecidableEq

/-- An element of an enumeration. -/
inductive Element
  | value (v : Datum)
  | resource (id : ResourceId)
  | response (r : Response)
  deriving DecidableEq

/-- What is left of a page. -/
inductive Ready
  | elements (left : List Element)
  /-- A list from a place on. What it gains meanwhile is an element too. -/
  | listFrom (list : Share) (place : Nat)
  /-- The keys of an object that had so many members. It must not gain others meanwhile. -/
  | keysOf (object : Share) (size : Nat) (left : List Datum)
  deriving DecidableEq

/-- How far an enumeration has come. -/
inductive Progress
  /-- Nothing was asked for; the parameters of the call are not built yet. -/
  | untouched (request : Request)
  /-- Something of the last page may be left, and more pages may follow. -/
  | under (paging : Paging) (ready : Ready)
  | exhausted
  deriving DecidableEq

/-- An enumeration: what it makes of each page, for which call, and how far it has come. -/
structure Enumeration where
  harvest : Harvest
  context : Context
  progress : Progress
  deriving DecidableEq

/-- A call that a client was asked to make. -/
inductive Exchange
  | call (client : ClientId) (method : String) (params : Json)
  | page (client : ClientId) (method : String) (params : Json)
  | http (client : ClientId) (request : HttpRequest)
  deriving DecidableEq

/-- The graph. -/
structure Graph where
  store : Store := {}
  types : Array ResourceType := #[]
  clients : Array Client := #[]
  resources : Array Resource := #[]
  enumerations : Array Enumeration := #[]
  /-- How many lists of resources were built. -/
  lists : Nat := 0
  /-- The calls that were made, in order. -/
  exchanges : Array Exchange := #[]

/-- Something done to a graph. -/
abbrev Act := ExceptT Failure (StateM Graph)

/-- What an operation gives. -/
inductive Outcome
  | value (v : Datum)
  | built (b : Built)
  | response (r : Response)
  | enumeration (id : EnumerationId)
  deriving DecidableEq

namespace Act

variable {α : Type}

/-- An action that fails. -/
def fail (failure : Failure) : Act α := throw failure

/-- An action that fails because of a use that is not checked for. -/
def misuse (m : Misuse) : Act α := fail (.misuse m)

/-- A result that was computed, as an action. -/
def lift (result : Except Failure α) : Act α := ExceptT.mk (pure result)

/-- Work on the store that may fail, as an action. -/
def inStore (work : ExceptT Failure (StateM Store) α) : Act α :=
  ExceptT.mk (modifyGet fun g =>
    let store := g.store
    let rest := { g with store := {} }
    let (result, store) := work.run.run store
    (result, { rest with store }))

/-- A change of the store, as an action. -/
def onStore (change : StateM Store α) : Act α := inStore (ExceptT.lift change)

/-- Keeps the containers of a datum, so that all who hold it share them. -/
def share (v : Datum) : Act Datum := onStore (Store.share v)

/-- Data from outside, which is shared with nobody yet. -/
def receive (tree : Json) : Act Datum := share (Value.ofJson tree)

/-- The tree of a datum now, as it is recorded or shown. A recorder fails on what goes too deep for
it. -/
def tree (v : Datum) : Act Json := do
  match (← get).store.shownTree? v with
  | some found => return found
  | none => misuse .endless

/-- What a datum is, looking through one share. -/
def opened (v : Datum) : Act Datum := do return (← get).store.opened v

/-- The value at a path of a datum. -/
def search (path : String) (v : Datum) : Act Datum := inStore (Path.search path v)

/-- The type that is referred to. -/
def typeOf (ref : TypeRef) : Act ResourceType := do
  return ((← get).types[ref.index]?).getD { name := ref.name }

/-- The resource with an id. -/
def resource (id : ResourceId) : Act Resource := do
  match (← get).resources[id]? with
  | some r => return r
  | none => misuse .noCaller

/-- Changes a resource. -/
def changeResource (id : ResourceId) (f : Resource → Resource) : Act Unit :=
  modify fun g => { g with resources := g.resources.modify id f }

/-- Notes a call. -/
def note (exchange : Exchange) : Act Unit :=
  modify fun g => { g with exchanges := g.exchanges.push exchange }

/-- The resource that an operation is invoked on. -/
def callerOf (context : Context) : Act Resource :=
  match context.caller with
  | some id => resource id
  | none => misuse .noCaller

end Act

end ResourceGraph
