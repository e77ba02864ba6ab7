import ResourceGraph.Proofs.CallerParams
import ResourceGraph.Proofs.HttpPages
import ResourceGraph.Proofs.Spreading
import ResourceGraph.Proofs.Templates

/-!
Where the parameters of a call over HTTP go. Those that the path of the route names stand in the
address; all others are carried in the query or in the body, by the verb, and nowhere else. A call
whose parameters do not fit the path sends nothing. They fit if each placeholder has a parameter and
none stands twice: the first of two uses the parameter up, and the second goes without. Nothing is
sent either where such a parameter cannot be written as a text.
-/

namespace ResourceGraph

open ResourceGraph.Graph

namespace Value

variable {ρ σ : Type}

/-- Members are replaced one by one, unless one of them cannot be. -/
theorem bindFields?_cases (f : ρ → Option (Value σ)) (fields : List (String × Value ρ)) :
    (∃ members, bindFields? f fields = some members ∧
      List.Forall₂ (fun field member => member.1 = field.1 ∧ field.2.bind? f = some member.2)
        fields members) ∨
    bindFields? f fields = none ∧ ∃ field ∈ fields, field.2.bind? f = none := by
  induction fields with
  | nil => exact .inl ⟨[], rfl, .nil⟩
  | cons field rest ih =>
    obtain ⟨key, v⟩ := field
    rw [bindFields?]
    cases first : v.bind? f with
    | none => exact .inr ⟨rfl, _, List.mem_cons_self, first⟩
    | some shown =>
      rcases ih with ⟨members, all, each⟩ | ⟨missing, other, member, unshown⟩
      · rw [all]
        exact .inl ⟨_, rfl, .cons ⟨rfl, first⟩ each⟩
      · rw [missing]
        exact .inr ⟨rfl, other, List.mem_cons_of_mem _ member, unshown⟩

end Value

/-! ## What is carried -/

namespace Store

/-- What is sent for members: nothing if there are none, or an object with what each of them shows,
in order. -/
inductive Carries (s : Store) : Keyed Datum → Option Json → Prop
  | nothing : Carries s [] none
  | object {fields : Keyed Datum} {members : Keyed Json} (any : fields ≠ [])
      (each : List.Forall₂ (fun field member => member.1 = field.1 ∧
        s.shownTree? field.2 = some member.2)
        fields members) : Carries s fields (some (.object members))

private theorem shownTree?_object (s : Store) (fields : Keyed Datum) :
    (∃ members, s.shownTree? (.object fields) = some (.object members) ∧
      List.Forall₂ (fun field member => member.1 = field.1 ∧ s.shownTree? field.2 = some member.2)
        fields members) ∨
    s.shownTree? (.object fields) = none ∧ ∃ field ∈ fields, s.shownTree? field.2 = none := by
  obtain ⟨through, shown⟩ : ∃ through, s.shownTree? = Value.bind? through := ⟨_, rfl⟩
  rw [shown, Value.bind?]
  rcases Value.bindFields?_cases through fields with ⟨members, all, each⟩ | ⟨missing, unshown⟩
  · exact .inl ⟨members, by rw [all]; rfl, each⟩
  · exact .inr ⟨by rw [missing]; rfl, unshown⟩

/-- Members are sent as what they carry, unless one of them shows nothing. -/
theorem sentTree_cases (s : Store) {fields : Keyed Datum} (distinct : (Keyed.keys fields).Nodup) :
    (∃ sent, s.sentTree fields [] = .ok sent ∧ s.Carries fields sent) ∨
    s.sentTree fields [] = .error (.misuse .endless) ∧
      ∃ field ∈ fields, s.shownTree? field.2 = none := by
  cases fields with
  | nil => exact .inl ⟨none, rfl, .nothing⟩
  | cons first rest =>
    have object : Value.ofEntries ((first :: rest).map Value.textEntry ++ []) =
        Value.object (first :: rest) := by
      rw [List.append_nil, Value.ofEntries_textEntries, Keyed.ofList_distinct distinct]
    unfold sentTree
    rw [if_neg (by simp)]
    rcases s.shownTree?_object (first :: rest) with ⟨members, shown, each⟩ | ⟨unshown, which⟩
    · rw [← object] at shown
      split
      · next sent there =>
        obtain rfl := Option.some.inj (shown.symm.trans there)
        exact .inl ⟨_, rfl, .object (List.cons_ne_nil _ _) each⟩
      · next missing => cases shown.symm.trans missing
    · rw [← object] at unshown
      split
      · next sent there => cases unshown.symm.trans there
      · exact .inr ⟨rfl, which⟩

end Store

/-! ## The request of a route -/

namespace Route

variable {route : Route} {fields : Keyed Datum}

/-- A placeholder of this name stands in the path. -/
def Named (route : Route) (name : String) : Prop := Template.Standing name route.path.toList

/-- A placeholder of this name stands in the path more than once. -/
def Repeats (route : Route) (name : String) : Prop := Template.Repeated name route.path.toList

/-- Each placeholder has a parameter, and none of them stands twice. -/
def Fits (route : Route) (given : List String) : Prop :=
  ∀ name, route.Named name → name ∈ given ∧ ¬ route.Repeats name

/-- The names in the placeholders of the path, in order. -/
def names (route : Route) : List String := Template.holes (Template.pieces route.path.toList)

theorem mem_names {name : String} : name ∈ route.names ↔ route.Named name := Template.mem_holes

private theorem fits_iff {given : List String} :
    route.Fits given ↔ (∀ name ∈ route.names, name ∈ given) ∧ route.names.Nodup := by
  constructor
  · refine fun fits => ⟨fun name member => (fits name (mem_names.mp member)).1, ?_⟩
    refine List.nodup_iff_forall_not_duplicate.mpr fun name twice => ?_
    exact (fits name (mem_names.mp twice.mem)).2 (Template.duplicate_holes.mp twice)
  · rintro ⟨all, once⟩ name named
    refine ⟨all name (mem_names.mpr named), fun twice => ?_⟩
    exact List.nodup_iff_forall_not_duplicate.mp once name (Template.duplicate_holes.mpr twice)

instance (route : Route) (name : String) : Decidable (route.Named name) :=
  decidable_of_iff (name ∈ route.names) mem_names

instance (route : Route) (given : List String) : Decidable (route.Fits given) :=
  decidable_of_iff _ fits_iff.symm

/-- Each parameter that a placeholder names can be written as a text. -/
def Written (route : Route) (s : Store) (fields : Keyed Datum) : Prop :=
  ∀ name, route.Named name → ¬ Template.Unwritten s.textOf fields name

/-- The parameters that no placeholder names, in order. -/
def carried (route : Route) (fields : Keyed Datum) : Keyed Datum :=
  fields.filter fun field => !route.Named field.1

/-- The failure of a call that has no parameter left for a placeholder. -/
def missing (route : Route) (name : String) : Failure :=
  .client ⟨"missing path parameter '" ++ name ++ "' for " ++ route.path, none, none, none⟩

private theorem written_iff {s : Store} :
    route.Written s fields ↔ ∀ name ∈ route.names, ∀ v ∈ Keyed.get? fields name, s.textOf v ≠ none := by
  constructor
  · intro written name member v there unshown
    exact written name (mem_names.mp member) ⟨v, there, unshown⟩
  · rintro written name named ⟨v, there, unshown⟩
    exact written name (mem_names.mpr named) v there unshown

instance (route : Route) (s : Store) (fields : Keyed Datum) : Decidable (route.Written s fields) :=
  decidable_of_iff _ written_iff.symm

/-- Texts are written as they are. -/
theorem written_of_texts (s : Store) (texts : ∀ field ∈ fields, ∃ text, field.2 = .str text) :
    route.Written s fields := by
  rintro name - ⟨v, there, unshown⟩
  obtain ⟨text, rfl⟩ := texts _ (Keyed.mem_of_get? there)
  cases unshown

/-- Why a call does not send its parameters, and what it fails with: there is none left for a
placeholder, or the one there is cannot be written. -/
inductive Unsent (route : Route) (s : Store) (fields : Keyed Datum) : Failure → Prop
  | missing {name : String} (named : route.Named name)
      (why : name ∉ Keyed.keys fields ∨ route.Repeats name) :
    Unsent route s fields (route.missing name)
  | unwritten {name : String} (named : route.Named name)
      (why : Template.Unwritten s.textOf fields name) :
    Unsent route s fields (.misuse .badNumber)

theorem Unsent.not_sent {s : Store} {f : Failure} (unsent : route.Unsent s fields f) :
    ¬ (route.Fits (Keyed.keys fields) ∧ route.Written s fields) := by
  rintro ⟨fits, written⟩
  cases unsent with
  | @missing name named why =>
    obtain ⟨given, once⟩ := fits name named
    rcases why with unknown | twice
    · exact unknown given
    · exact once twice
  | @unwritten name named why => exact written name named why

private theorem nodup_carried (route : Route) (distinct : (Keyed.keys fields).Nodup) :
    (Keyed.keys (route.carried fields)).Nodup :=
  distinct.sublist (List.filter_sublist.map Prod.fst)

end Route

namespace HttpClient

variable {c : HttpClient} {route : Route} {s : Store} {fields : Keyed Datum}

/-- The request is the one of the route: parameters that the path names fill it in one pass, and all
others are carried in the one place that the verb says. -/
structure Makes (c : HttpClient) (route : Route) (s : Store) (fields : Keyed Datum)
    (request : HttpRequest) :
    Prop where
  verb : request.verb = route.capitalVerb
  headers : request.headers = c.requestHeaders
  address : ∃ path, Template.Filled (Template.valueOf s.textOf fields) route.path.toList path ∧
    request.address = c.base ++ String.ofList path
  query : if route.capitalVerb ∈ bodilessVerbs then s.Carries (route.carried fields) request.query else
    request.query = none
  body : if route.capitalVerb ∈ bodilessVerbs then request.body = none else
    s.Carries (route.carried fields) request.body

/-- An address is made of parameters that fit the path and can be written; of all others none is
made. -/
theorem address_cases (c : HttpClient) (route : Route) (s : Store) (fields : Keyed Datum) :
    (route.Fits (Keyed.keys fields) ∧ route.Written s fields ∧
      ∃ path, Template.Filled (Template.valueOf s.textOf fields) route.path.toList path ∧
        c.address route s.textOf fields = .ok (c.base ++ String.ofList path, route.carried fields)) ∨
    ∃ f, route.Unsent s fields f ∧ c.address route s.textOf fields = .error f := by
  rcases Template.fill_cases s.textOf (Template.pieces route.path.toList) fields with
    ⟨filled, given, once⟩ | ⟨name, member, missing, why⟩ | ⟨name, member, stopped, why⟩
  · refine .inl ⟨Route.fits_iff.mpr ⟨fun name member => (given name member).1, once⟩,
      fun name named => (given name (Route.mem_names.mpr named)).2, _, Template.filled_pieces _ _, ?_⟩
    have same : route.carried fields = fields.filter fun field => !route.names.contains field.1 := by
      refine List.filter_congr fun field _ => congrArg _ ?_
      rw [List.contains_eq_mem]
      exact decide_eq_decide.mpr Route.mem_names.symm
    unfold address
    rw [filled, same]
    rfl
  · refine .inr ⟨_, .missing (Route.mem_names.mp member) (why.imp_right Template.duplicate_holes.mp), ?_⟩
    unfold address
    rw [missing]
    rfl
  · refine .inr ⟨_, .unwritten (Route.mem_names.mp member) why, ?_⟩
    unfold address
    rw [stopped]

private theorem query_request (c : HttpClient) (route : Route) (address : String) (sent : Option Json) :
    (c.request route address sent).query = if route.capitalVerb ∈ bodilessVerbs then sent else none := by
  unfold request Route.sendsBody
  by_cases bodiless : route.capitalVerb ∈ bodilessVerbs <;> simp [bodiless]

private theorem body_request (c : HttpClient) (route : Route) (address : String) (sent : Option Json) :
    (c.request route address sent).body = if route.capitalVerb ∈ bodilessVerbs then none else sent := by
  unfold request Route.sendsBody
  by_cases bodiless : route.capitalVerb ∈ bodilessVerbs <;> simp [bodiless]

private theorem makes_request {path : List Char} {sent : Option Json}
    (filled : Template.Filled (Template.valueOf s.textOf fields) route.path.toList path)
    (carries : s.Carries (route.carried fields) sent) :
    c.Makes route s fields (c.request route (c.base ++ String.ofList path) sent) := by
  refine ⟨rfl, rfl, ⟨path, filled, rfl⟩, ?_, ?_⟩
  · rw [query_request]
    split
    · exact carries
    · rfl
  · rw [body_request]
    split
    · rfl
    · exact carries

/-- What parameters are sent as depends on whether they fit the path and can be written. -/
theorem spelled_cases {params : Datum} (c : HttpClient) (route : Route)
    (content : s.opened params = .object fields) (distinct : (Keyed.keys fields).Nodup) :
    (route.Fits (Keyed.keys fields) ∧ route.Written s fields ∧
      ((∃ request, c.spelled route s params = .ok request ∧ c.Makes route s fields request) ∨
        c.spelled route s params = .error (.misuse .endless) ∧
          ∃ field ∈ route.carried fields, s.shownTree? field.2 = none)) ∨
    ∃ f, route.Unsent s fields f ∧ c.spelled route s params = .error f := by
  have entries : Value.entries s.opened params = .ok (fields.map Value.textEntry) := by
    unfold Value.entries
    rw [content]
    rfl
  have own : Act.splitEntries ((Value.ofEntries (fields.map Value.textEntry)).entries?.getD []) =
      (fields, []) := by
    rw [Value.ofEntries_textEntries, Keyed.ofList_distinct distinct]
    exact Act.splitEntries_textEntries fields
  unfold spelled
  rw [entries]
  dsimp only
  rw [own]
  dsimp only
  rcases c.address_cases route s fields with
    ⟨fits, written, path, filled, addressed⟩ | ⟨f, unsent, failed⟩
  · rw [addressed]
    dsimp only
    rcases s.sentTree_cases (route.nodup_carried distinct) with ⟨sent, shown, carries⟩ | ⟨unshown, which⟩
    · exact .inl ⟨fits, written, .inl ⟨_, by rw [shown]; rfl, makes_request filled carries⟩⟩
    · exact .inl ⟨fits, written, .inr ⟨by rw [unshown]; rfl, which⟩⟩
  · rw [failed]
    exact .inr ⟨f, unsent, rfl⟩

end HttpClient

namespace Act

variable {g : Graph} {id : ClientId} {c : HttpClient} {method : String} {route : Route} {params : Datum}

private theorem runIn_call_http (serves : g.clients[id]? = some (.http c))
    (routed : Keyed.get? c.routes method = some route)
    (params : Datum) : runIn (call id method params) g = runIn (send id c method route params) g := by
  have found : runIn (client id) g = (.ok (.http c), g) := client_runs serves
  unfold call
  rw [runIn_bind_ok found]
  dsimp only
  rw [runIn_bind, runIn_liftResult, HttpClient.route, routed]

/-- A request that can be spelled is sent, whatever is answered. The response has the parameters
that were given. -/
theorem runIn_send_spelled (serves : g.clients[id]? = some (.http c)) {request : HttpRequest}
    (spelled : c.spelled route g.store params = .ok request) :
    (runIn (send id c method route params) g).2.exchanges = g.exchanges.push (.http id request) ∧
      (runIn (send id c method route params) g).1.map Response.params =
        (c.answer method).map fun _ => params := by
  rw [runIn_send serves, spelled]
  dsimp only
  cases c.answer method with
  | error f => exact ⟨rfl, rfl⟩
  | ok payload => exact ⟨rfl, rfl⟩

/-- **A call over HTTP sends its parameters, each to one place, if they fit the path of the route.**
What the path names fills it in one pass, all else is carried in the query or in the body, and the
response has the parameters that were given, all of them; only what cannot be shown by the recorder,
since it goes too deep, is not sent. Parameters that do not fit, or of which one that the path names
cannot be written, send nothing and leave the graph as it is: the call fails for a placeholder that
has no parameter, that stands for the second time, or whose parameter has no text. -/
theorem call_routed {fields : Keyed Datum} (serves : g.clients[id]? = some (.http c))
    (routed : Keyed.get? c.routes method = some route) (content : g.store.opened params = .object fields)
    (distinct : (Keyed.keys fields).Nodup) :
    let ran := runIn (call id method params) g
    (route.Fits (Keyed.keys fields) → route.Written g.store fields →
      (∃ request, c.Makes route g.store fields request ∧
        ran.2.exchanges = g.exchanges.push (.http id request) ∧
        ran.1.map Response.params = (c.answer method).map fun _ => params) ∨
      (∃ field ∈ route.carried fields, g.store.shownTree? field.2 = none) ∧
        ran = (.error (.misuse .endless), g)) ∧
    (¬ (route.Fits (Keyed.keys fields) ∧ route.Written g.store fields) →
      ∃ f, route.Unsent g.store fields f ∧ ran = (.error f, g)) := by
  dsimp only
  rw [runIn_call_http serves routed]
  rcases c.spelled_cases route content distinct with ⟨fits, written, sent⟩ | ⟨f, unsent, failed⟩
  · refine ⟨fun _ _ => ?_, fun unfit => absurd ⟨fits, written⟩ unfit⟩
    rcases sent with ⟨request, spelled, makes⟩ | ⟨endless, which⟩
    · exact .inl ⟨request, makes, runIn_send_spelled serves spelled⟩
    · exact .inr ⟨which, by rw [runIn_send serves, endless]⟩
  · exact ⟨fun fits written => absurd ⟨fits, written⟩ unsent.not_sent,
      fun _ => ⟨f, unsent, by rw [runIn_send serves, failed]⟩⟩

end Act

/-- A client of users. The path of a copy has the name of the user twice. -/
def HttpClient.users : HttpClient where
  base := "https://api.example.com"
  routes := [("get_user", ⟨"get", "/users/\x7bid\x7d", none⟩),
    ("get_copy", ⟨"get", "/users/\x7bid\x7d/copies/\x7bid\x7d", none⟩)]
  replies := [.answer 200 "\x7b\x7d"]

/-- The graph of one HTTP client. -/
def Graph.served (c : HttpClient) : Graph where
  clients := #[.http c]

/-- What stands in the address is not sent once more, and what does not stand there is in the query. -/
theorem Act.call_routed_user :
    let fields := [("id", .str "ann"), ("Verbose", .str "1")]
    ∃ request, HttpClient.users.Makes ⟨"get", "/users/\x7bid\x7d", none⟩ {} fields request ∧
      (runIn (Act.call 0 "get_user" (.object fields)) (.served .users)).2.exchanges =
        #[.http 0 request] ∧
      request = ⟨"GET", "https://api.example.com/users/ann", some (.object [("Verbose", .str "1")]),
        none, []⟩ := by
  intro fields
  have all : (runIn (Act.call 0 "get_user" (.object fields)) (.served .users)).2.exchanges =
      #[.http 0 ⟨"GET", "https://api.example.com/users/ann", some (.object [("Verbose", .str "1")]),
        none, []⟩] := by
    decide +kernel
  have lawful := @call_routed (.served .users) 0 .users "get_user"
    ⟨"get", "/users/\x7bid\x7d", none⟩ (.object fields)
    fields rfl rfl rfl (by decide)
  rcases lawful.1 (by decide +kernel) (Route.written_of_texts _ (by simp [fields])) with
    ⟨request, makes, sent, _⟩ | ⟨_, unsent⟩
  · refine ⟨request, makes, sent, ?_⟩
    rw [sent] at all
    exact (Exchange.http.inj (Array.push_inj_right.mp all)).2
  · rw [unsent] at all
    cases all

/-- Every placeholder has a parameter, and nothing is sent: the second placeholder of the name goes
without. -/
theorem Act.unsent_though_given :
    let route : Route := ⟨"get", "/users/\x7bid\x7d/copies/\x7bid\x7d", none⟩
    let ran := runIn (Act.call 0 "get_copy" (.object [("id", .str "ann")])) (.served .users)
    Keyed.get? HttpClient.users.routes "get_copy" = some route ∧
      (∀ name, route.Named name → name ∈ ["id"]) ∧
      ran.1 = .error (route.missing "id") ∧ ran.2.exchanges = #[] := by
  refine ⟨rfl, fun name named => ?_, ?_, ?_⟩
  · have both : Route.names ⟨"get", "/users/\x7bid\x7d/copies/\x7bid\x7d", none⟩ =
        ["id", "id"] := by decide +kernel
    have listed := Route.mem_names.mpr named
    rw [both] at listed
    simpa using listed
  · decide +kernel
  · decide +kernel

end ResourceGraph
