import ResourceGraph.Graph.Invoke

/-!
Enumerations. The elements are those of the pages, one page after another; a page is asked for only
when the elements of the one before it are used up. A container that others share can change while
it is gone through: a list may grow, but an object must not. An enumeration that failed, like one
that came to its end, gives nothing more.
-/

namespace ResourceGraph.Act

/-- What a datum can be gone through by: the elements of a list, the characters of a text, the keys
of an object. Other things cannot be gone through. -/
def parts (v : Datum) : Act (List Datum) := do
  match ← opened v with
  | .list items => return items
  | .str s => return s.toList.map fun c => .str c.toString
  | content =>
    match content.entries? with
    | some entries => return entries.map Prod.fst
    | none => misuse .notIterable

/-- The item of a datum at a whole number: an element of a list or a character of a text, counted
from the end where the number is negative, or what a table has under the number. -/
def item (v : Datum) (place : Int) : Act Datum := do
  match ← opened v with
  | .object _ => misuse .missingKey
  | .table entries =>
    match entries.find? fun entry => Value.sameKey entry.1 (.int place) with
    | some (_, found) => return found
    | none => misuse .missingKey
  | _ => do
    let all ← parts v
    match (Path.placeIn? all.length place).bind (all[·]?) with
    | some found => return found
    | none => misuse .outOfRange

/-- Going through a datum from its start. A shared container is gone through as it is, and not as it
was. -/
def walk (v : Datum) : Act Ready := do
  let all ← parts v
  match v, ← opened v with
  | .shared list, .list _ => return .listFrom list 0
  | .shared object, .object fields => return .keysOf object fields.length all
  | .shared object, .table entries => return .keysOf object entries.length all
  | _, _ => return .elements (all.map .value)

/-- How many members an object has now. -/
def sizeOf (object : Share) : Act Nat := do
  match ← opened (.shared object) with
  | .object fields => return fields.length
  | .table entries => return entries.length
  | _ => return 0

/-- The next of what is ready, if something is left. -/
def takeReady : Ready → Act (Option (Element × Ready))
  | .elements [] => return none
  | .elements (first :: left) => return some (first, .elements left)
  | .listFrom list place => do
    match ← opened (.shared list) with
    | .list items => return items[place]?.map fun v => (.value v, .listFrom list (place + 1))
    | _ => return none
  | .keysOf object size left => do
    if (← sizeOf object) != size then misuse .changedMeanwhile
    else
      match left with
      | [] => return none
      | first :: rest => return some (.value first, .keysOf object size rest)

/-- What a value on a page contributes. What is empty contributes nothing, whatever it is. -/
def valueElements (v : Datum) : Act Ready := do
  if (← opened v).isEmpty then return .elements [] else walk v

/-- What a page contributes to an enumeration. -/
def harvestPage (harvest : Harvest) (context : Context) (page : Response) : Act Ready := do
  match harvest with
  | .values path => valueElements (← search path page.data)
  | .resources builder =>
    match ← build builder { context with response := some page } with
    | .several _ members => return .elements (members.map .resource)
    | .one _ => misuse .notIterable
  | .responses => return .elements [.response page]

/-- How many pages a client can give for a method at most. -/
def pageLimit (method : String) : Client → Nat
  | .prepared script => ((Keyed.get? script.pages method).getD []).length
  | .http c => c.replies.length
  | .standIn _ => 0

/-- The first element on the pages that follow, with what comes after it. Empty pages are passed
over. -/
def seek (harvest : Harvest) (context : Context) :
    Nat → Paging → Act (Option (Element × Paging × Ready))
  | 0, _ => return none
  | limit + 1, paging => do
    match ← nextPage paging with
    | none => return none
    | some (page, further) =>
      match ← takeReady (← harvestPage harvest context page) with
      | some (first, ready) => return some (first, further, ready)
      | none => seek harvest context limit further

/-- The paginated call of a request, with the parameters it is made with. -/
def openPaging (request : Request) (context : Context) : Act Paging := do
  let params ← buildParams data request context
  let caller ← callerOf context
  return { client := caller.client, method := request.method, params }

/-- Notes how far an enumeration has come. -/
def setProgress (id : EnumerationId) (progress : Progress) : Act Unit :=
  modify fun g =>
    { g with enumerations := g.enumerations.modify id fun e => { e with progress } }

/-- The next element found on further pages. Until it is found the enumeration counts as exhausted,
so that a failure ends it. -/
def advance (id : EnumerationId) (e : Enumeration) (paging : Act Paging) : Act (Option Element) := do
  setProgress id .exhausted
  let start ← paging
  let limit := pageLimit start.method (← client start.client)
  match ← seek e.harvest e.context (limit + 2) start with
  | some (first, further, ready) =>
    setProgress id (.under further ready)
    return some first
  | none => return none

/-- The next element of an enumeration, if there is one. -/
def next (id : EnumerationId) : Act (Option Element) := do
  match (← get).enumerations[id]? with
  | none => return none
  | some e =>
    match e.progress with
    | .exhausted => return none
    | .untouched request => advance id e (openPaging request e.context)
    | .under paging ready => do
      setProgress id .exhausted
      match ← takeReady ready with
      | some (first, left) =>
        setProgress id (.under paging left)
        return some first
      | none => advance id e (return paging)

/-- A paginated call made directly on a client. -/
def paginate (client : ClientId) (method : String) (params : Datum) : Act EnumerationId :=
  enumerate .responses { caller := none } (.under { client, method, params } (.elements []))

end ResourceGraph.Act
