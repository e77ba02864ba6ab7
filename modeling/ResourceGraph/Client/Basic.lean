import ResourceGraph.Client.Template
import ResourceGraph.Json.Body
import ResourceGraph.Text.Upper
import ResourceGraph.Value.Datum

/-!
Clients: what resources send their calls to. A client answers a call with a response, which holds
the data and the parameters that were sent, and a paginated call with one response for each page. A
prepared client has its answers written down beforehand; an HTTP client sends requests as its routes
say.
-/

namespace ResourceGraph

/-- What a client gives back: the data, and the parameters it was asked with. -/
structure Response where
  data : Datum
  params : Datum
  deriving DecidableEq

/-- What a prepared reply does. -/
inductive Answer
  | data (given : Json)
  /-- The parameters come back as data. -/
  | echo
  | failure (text : String)
  deriving DecidableEq

/-- One prepared reply. It may say that other parameters were sent. -/
structure Reply where
  answer : Answer
  params : Option Json := none
  deriving DecidableEq

/-- A prepared client: the replies to the calls of each method, the pages of each paginated method,
and how many calls of each method there have been. The last reply to a call is given ever after. -/
structure Script where
  calls : Keyed (List Reply) := []
  pages : Keyed (List Reply) := []
  asked : Keyed Nat := []
  deriving DecidableEq

/-- The reply to the next call of a method. -/
def Script.reply? (s : Script) (method : String) : Option Reply :=
  match Keyed.get? s.calls method with
  | none => none
  | some replies => replies[min ((Keyed.get? s.asked method).getD 0) (replies.length - 1)]?

/-- The script after a call of a method. -/
def Script.askedOnceMore (s : Script) (method : String) : Script :=
  { s with asked := Keyed.put s.asked method ((Keyed.get? s.asked method).getD 0 + 1) }

/-- How a paginated route goes on: a parameter for the token, and the path where a page has the
next. -/
structure Pagination where
  inputToken : String
  outputToken : String
  deriving DecidableEq, Repr

/-- The verb and path that a method is sent as. -/
structure Route where
  verb : String
  path : String
  pagination : Option Pagination := none
  deriving DecidableEq, Repr

/-- The verb in capitals. -/
def Route.capitalVerb (r : Route) : String := Text.upper r.verb

/-- The verbs whose requests have no body. -/
def bodilessVerbs : List String := ["GET", "DELETE", "HEAD", "OPTIONS"]

/-- The parameters go into the body, and not into the query. -/
def Route.sendsBody (r : Route) : Bool := !bodilessVerbs.contains r.capitalVerb

/-- What comes back over HTTP. -/
inductive HttpReply
  | answer (status : Nat) (body : String)
  | failure (text : String)
  deriving DecidableEq, Repr

/-- An HTTP client, and what the other end will answer in turn. -/
structure HttpClient where
  base : String
  routes : Keyed Route
  key : Option String := none
  headers : Keyed String := []
  replies : List HttpReply := []
  deriving DecidableEq, Repr

namespace HttpClient

/-- A base address without the slashes at its end. -/
def trimmedBase (base : String) : String :=
  String.ofList (base.toList.reverse.dropWhile (· == '/')).reverse

/-- A client for a base address. -/
def make (base : String) (routes : Keyed Route) (key : Option String) (headers : Keyed String)
    (replies : List HttpReply) : HttpClient :=
  ⟨trimmedBase base, routes, key, headers, replies⟩

/-- The names of the methods, in order. -/
def methodNames (c : HttpClient) : List String := Keyed.keys c.routes

/-- The route of a method. -/
def route (c : HttpClient) (method : String) : Except Failure Route :=
  match Keyed.get? c.routes method with
  | some found => .ok found
  | none => .error (.unknownMethod method c.methodNames)

/-- The headers of every request: the default ones, and the key if there is one. -/
def requestHeaders (c : HttpClient) : Keyed String :=
  match c.key with
  | some key =>
    if key.isEmpty then c.headers else Keyed.put c.headers "Authorization" ("Bearer " ++ key)
  | none => c.headers

/-- The client as messages show it. -/
def display (c : HttpClient) : String :=
  "HttpApiClient(base_url=" ++ Text.quoted c.base ++ ", routes=" ++ toString c.routes.length ++ ")"

end HttpClient

/-- A client. -/
inductive Client
  | prepared (script : Script)
  | http (client : HttpClient)
  /-- Something else that was given in the place of a client. It has no methods at all. -/
  | standIn (value : Datum)
  deriving DecidableEq

/-- A request as it is sent over HTTP. -/
structure HttpRequest where
  verb : String
  address : String
  query : Option Json
  body : Option Json
  headers : Keyed String
  deriving DecidableEq

/-- The address that a route makes of parameters, given the text of each that has one, and the
parameters that fill no hole of its path. -/
def HttpClient.address {α : Type} (c : HttpClient) (route : Route) (text : α → Option String)
    (params : Keyed α) : Except Failure (String × Keyed α) :=
  match Template.fill text (Template.pieces route.path.toList) params with
  | .error (.missing name) =>
    .error (.client ⟨"missing path parameter '" ++ name ++ "' for " ++ route.path, none, none, none⟩)
  | .error (.unwritten _) => .error (.misuse .badNumber)
  | .ok (path, left) => .ok (c.base ++ String.ofList path, left)

/-- The request of a route to an address. What is sent goes into the query or the body. -/
def HttpClient.request (c : HttpClient) (route : Route) (address : String) (sent : Option Json) :
    HttpRequest where
  verb := route.capitalVerb
  address := address
  query := if route.sendsBody then none else sent
  body := if route.sendsBody then sent else none
  headers := c.requestHeaders

/-- The longest part of an error body that is shown. -/
def shownBody (body : String) : String := String.ofList (body.toList.take 500)

/-- The data of an answer, or the error that its status means. An empty body is null. -/
def HttpReply.read (method : String) : HttpReply → Except Failure Json
  | .failure text => .error (.foreign text)
  | .answer status body =>
    let shown := shownBody body
    if 400 ≤ status then
      .error (.client ⟨"API error " ++ toString status ++ ": " ++ shown, some method,
        some (status : Int), some shown⟩)
    else if body.isEmpty then .ok .null
    else
      match Json.readBody body with
      | .ok data => .ok data
      | .error fault => .error fault

end ResourceGraph
