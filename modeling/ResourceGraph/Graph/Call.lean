import ResourceGraph.Graph.Basic

/-!
Calls of a client. Every call is noted before it is answered, also when the answer is a failure. A
paginated call is asked page by page: its first page only when it is wanted, and each further one
only when the page before it says that there is one.

It is the client that notes what it is asked with. A record has room for so many containers inside
each other (`Store.shownDepth`), and a client that cannot record its parameters fails as one whose
answer is a failure does.
-/

namespace ResourceGraph.Act

/-- The failure of a value that has no entries where entries are needed. -/
def entriesFailure : Value.EntriesFault → Failure
  | .notASequence => .misuse .notAMapping
  | .notAPair => .misuse .unevenEntries

/-- The entries of a datum. -/
def entriesOf (v : Datum) : Act (List (Datum × Datum)) := do
  match Value.entries (← get).store.opened v with
  | .ok entries => return entries
  | .error fault => fail (entriesFailure fault)

/-- A new object with the entries of a datum. -/
def objectOf (v : Datum) : Act Datum := do share (Value.ofEntries (← entriesOf v))

/-- The members whose keys are texts, and the entries with other keys. -/
def splitEntries {ρ : Type} :
    List (Value ρ × Value ρ) → Keyed (Value ρ) × List (Value ρ × Value ρ)
  | [] => ([], [])
  | (.str key, v) :: rest => ((key, v) :: (splitEntries rest).1, (splitEntries rest).2)
  | entry :: rest => ((splitEntries rest).1, entry :: (splitEntries rest).2)

/-- The tree of what is sent, if anything is. -/
def sentTree (named : Keyed Datum) (others : List (Datum × Datum)) : Act (Option Json) := do
  if named.isEmpty && others.isEmpty then return none
  else
    let entries := named.map (fun (key, v) => (Value.str key, v)) ++ others
    return some (← tree (Value.ofEntries entries))

/-- A client goes on as another. -/
def replaceClient (id : ClientId) (client : Client) : Act Unit :=
  modify fun g => { g with clients := g.clients.setIfInBounds id client }

/-- The client with an id. -/
def client (id : ClientId) : Act Client := do
  match (← get).clients[id]? with
  | some c => return c
  | none => misuse .noCaller

/-- The response that a prepared reply gives. Without a reply the data is null. -/
def respond (reply : Option Reply) (params : Datum) : Act Response :=
  match reply with
  | none => return ⟨.null, params⟩
  | some r => do
    let data ← match r.answer with
      | .failure text => fail (.foreign text)
      | .echo => onStore (Store.copy params)
      | .data given => receive given
    match r.params with
    | none => return ⟨data, params⟩
    | some other => return ⟨data, ← receive other⟩

/-- Sends one request over HTTP. Parameters that fill no hole of the path are sent along, together
with the entries whose keys are no texts. The other end records the request, or fails where it
cannot. -/
def send (id : ClientId) (c : HttpClient) (method : String) (route : Route) (params : Datum) :
    Act Response := do
  let entries := (Value.ofEntries (← entriesOf params)).entries?
  let (named, others) := splitEntries (entries.getD [])
  let (address, left) ← lift (c.address route (← get).store.textOf named)
  note (.http id (c.request route address (← sentTree left others)))
  match c.replies with
  | [] => fail (.foreign "no reply left")
  | reply :: rest => do
    replaceClient id (.http { c with replies := rest })
    let data ← lift (reply.read method)
    return ⟨← receive data, params⟩

/-- Calls a method of a client. A prepared one first records the parameters, or fails where it
cannot. -/
def call (id : ClientId) (method : String) (params : Datum) : Act Response := do
  match ← client id with
  | .prepared script => do
    note (.call id method (← tree params))
    replaceClient id (.prepared (script.askedOnceMore method))
    respond (script.reply? method) params
  | .http c => do
    let route ← lift (c.route method)
    send id c method route params
  | .standIn _ => misuse .unknownAttribute

/-- The next of the prepared pages. The client first records what it was asked with, or fails where
it cannot. -/
def preparedPage (p : Paging) : List Reply → Act (Option (Response × Paging))
  | [] => return none
  | reply :: left => do
    note (.page p.client p.method (← tree p.params))
    let page ← respond (some reply) p.params
    return some (page, { p with pages := .prepared left })

/-- The page that a request over HTTP gives. -/
def sentPage (p : Paging) (c : HttpClient) (route : Route) (params : Datum) :
    Act (Option (Response × Paging)) := do
  let page ← send p.client c p.method route params
  return some (page, { p with pages := .after route page })

/-- The token that a page has for the next one, if it has one. -/
def nextToken (pagination : Pagination) (page : Response) : Act (Option Datum) := do
  let token ← search pagination.outputToken page.data
  return if (← opened token).isEmpty then none else some token

/-- The parameters of the next page: those of the page before, with another token. -/
def nextParams (pagination : Pagination) (page : Response) (token : Datum) : Act Datum := do
  share ((← opened page.params).withMember pagination.inputToken token)

/-- The next page of a paginated call, if there is one. -/
def nextPage (p : Paging) : Act (Option (Response × Paging)) := do
  match p.pages, ← client p.client with
  | .unasked, .prepared script => preparedPage p ((Keyed.get? script.pages p.method).getD [])
  | .unasked, .http c => do
    let route ← lift (c.route p.method)
    sentPage p c route (← objectOf p.params)
  | .prepared left, _ => preparedPage p left
  | .after route page, .http c =>
    match route.pagination with
    | none => return none
    | some pagination => do
      match ← nextToken pagination page with
      | none => return none
      | some token => sentPage p c route (← nextParams pagination page token)
  | .unasked, .standIn _ => misuse .unknownAttribute
  | .after _ _, .prepared _ | .after _ _, .standIn _ => return none

end ResourceGraph.Act
