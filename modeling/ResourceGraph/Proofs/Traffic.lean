import ResourceGraph.Proofs.DataLaw
import ResourceGraph.Proofs.Fanout

/-!
The calls that actions come to. What an action needs of a client is a list in order: a call, or the
data of a resource, which is a call of its load method where the data is not there, and none from
then on. The calls that are made are those that the needs come to, and where an action fails, the
first of these.
-/

namespace ResourceGraph

open ResourceGraph.Graph Store

/-- A call that is to be made: a single one, or for one page. -/
inductive Demand
  | single (method : String)
  | page (method : String)
  deriving DecidableEq

/-- The method that is called. -/
def Demand.method : Demand → String
  | single method | page method => method

/-- The client makes this of the demand: a prepared client notes the call itself, and one over HTTP
sends a request of the route of the method. -/
inductive Graph.Makes (g : Graph) (c : ClientId) : Demand → Exchange → Prop
  | single {method : String} {params : Json} : g.Makes c (.single method) (.call c method params)
  | page {method : String} {params : Json} : g.Makes c (.page method) (.page c method params)
  | http {demand : Demand} {client : HttpClient} {route : Route} {address : String} {sent : Option Json}
    (served : g.clients[c]? = some (.http client)) (routed : client.route demand.method = .ok route) :
    g.Makes c demand (.http c (client.request route address sent))

/-- Between the graphs these demands were made of the client, in this order, and nothing else was
called. No data was assigned, but for a resource: where it had none, or where it is being loaded. -/
structure Graph.Traffic (c : ClientId) (id : ResourceId) (loading : Prop) (demands : List Demand)
    (g h : Graph) : Prop where
  types : h.types = g.types
  resources : ∀ (x : ResourceId) r, g.resources[x]? = some r → ∃ s, h.resources[x]? = some s ∧
    r.Remains s ∧
    (s.data = r.data ∨ x = id ∧ (loading ∨ r.data = none))
  clients : ∀ (x : ClientId) d, g.clients[x]? = some d → ∃ e, h.clients[x]? = some e ∧ d.GoesOn e
  known : h.clients.size = g.clients.size
  exchanges : ∃ more, h.exchanges.toList = g.exchanges.toList ++ more ∧
    List.Forall₂ (g.Makes c) demands more

/-- Nothing was called and no data assigned. -/
structure Graph.Quiet (g h : Graph) : Prop where
  types : h.types = g.types
  resources : ∀ (x : ResourceId) r, g.resources[x]? = some r →
    ∃ s, h.resources[x]? = some s ∧ r.Remains s ∧ s.data = r.data
  clients : h.clients = g.clients
  exchanges : h.exchanges = g.exchanges

/-- The call of the load method of a resource, if its type can be loaded. -/
def Graph.loadCall (g : Graph) (id : ResourceId) : List Demand :=
  match (g.resources[id]?).bind fun r =>
    ((g.types[r.type.index]?).bind ResourceType.load).map Operation.work with
  | some (.load request _) => [.single request.method]
  | _ => []

/-- The calls that reading the data of a resource comes to. -/
def Graph.reading (g : Graph) (id : ResourceId) : List Demand :=
  if (g.held id).isSome then [] else g.loadCall id

/-- The resource calls the client, and the request that loads it reads no data. -/
structure Graph.Ready (c : ClientId) (id : ResourceId) (g : Graph) : Prop where
  calls : ∃ r, g.resources[id]? = some r ∧ r.client = c
  plain : ∀ r request path, g.Loads id r request path → request.ReadsNoData

/-- What an action needs: the data of its resource, or a call. -/
inductive Need
  | data
  | call (demand : Demand)
  deriving DecidableEq

/-- The calls that needs come to, when the data comes to these the first time. -/
def Need.demands (first : List Demand) : List Need → List Demand
  | [] => []
  | data :: rest => first ++ demands [] rest
  | call demand :: rest => demand :: demands first rest

/-- The calls that the data still comes to after these needs. -/
def Need.left (first : List Demand) (needs : List Need) : List Demand :=
  if .data ∈ needs then [] else first

theorem Need.demands_append (first : List Demand) (needs further : List Need) :
    demands first (needs ++ further) = demands first needs ++ demands (left first needs) further := by
  induction needs generalizing first with
  | nil => rfl
  | cons need rest ih =>
    cases need with
    | data =>
      simp [demands, ih, left]
    | call demand => simp [demands, ih, left]

theorem Need.left_append (first : List Demand) (needs further : List Need) :
    left first (needs ++ further) = left (left first needs) further := by
  unfold left
  by_cases early : Need.data ∈ needs
  · simp [early]
  · simp [early]

namespace Graph

variable {c : ClientId} {id : ResourceId} {loading : Prop} {demands more : List Demand} {g h i : Graph}

/-! ## Traffic -/

/-- A client was there before it was called. -/
theorem served_before {d : Client}
    (clients : ∀ (x : ClientId) d, g.clients[x]? = some d → ∃ e, h.clients[x]? = some e ∧ d.GoesOn e)
    (known : h.clients.size = g.clients.size) (served : h.clients[c]? = some d) :
    ∃ first, g.clients[c]? = some first ∧ first.GoesOn d := by
  have inside := (Array.getElem?_eq_some_iff.mp served).1
  rw [known] at inside
  have before := Array.getElem?_eq_getElem inside
  obtain ⟨e, later, on⟩ := clients c _ before
  cases served.symm.trans later
  exact ⟨_, before, on⟩

/-- A client over HTTP was one before it was called, with the same routes. -/
theorem routes_before {client : HttpClient}
    (clients : ∀ (x : ClientId) d, g.clients[x]? = some d → ∃ e, h.clients[x]? = some e ∧ d.GoesOn e)
    (known : h.clients.size = g.clients.size) (served : h.clients[c]? = some (.http client)) :
    ∃ first : HttpClient, g.clients[c]? = some (.http first) ∧
      client = { first with replies := client.replies } := by
  obtain ⟨first, before, on⟩ := served_before clients known served
  cases first with
  | prepared script | standIn v => exact on.elim
  | http first => exact ⟨first, before, on.1⟩

theorem Makes.back {demand : Demand} {x : Exchange}
    (clients : ∀ (x : ClientId) d, g.clients[x]? = some d → ∃ e, h.clients[x]? = some e ∧ d.GoesOn e)
    (known : h.clients.size = g.clients.size) (makes : h.Makes c demand x) : g.Makes c demand x := by
  cases makes with
  | single => exact .single
  | page => exact .page
  | @http _ client route address sent served routed =>
    obtain ⟨first, before, same⟩ := routes_before clients known served
    have again : client.request route address sent = first.request route address sent := by
      rw [same]
      rfl
    rw [again]
    refine .http before ?_
    rw [← routed, same]
    rfl

theorem Traffic.trans (first : g.Traffic c id loading demands h)
    (second : h.Traffic c id loading more i) :
    g.Traffic c id loading (demands ++ more) i where
  types := second.types.trans first.types
  resources x r there := by
    obtain ⟨s, mid, remains, data⟩ := first.resources x r there
    obtain ⟨u, last, again, later⟩ := second.resources x s mid
    refine ⟨u, last, Resource.remains_lasting.trans remains again, ?_⟩
    rcases data with same | assigned
    · rw [same] at later
      exact later
    · exact .inr assigned
  clients := Client.goesOn_lasting.members first.clients second.clients
  known := second.known.trans first.known
  exchanges := by
    obtain ⟨made, one, each⟩ := first.exchanges
    obtain ⟨further, two, others⟩ := second.exchanges
    refine ⟨made ++ further, by rw [two, one, List.append_assoc], ?_⟩
    exact List.rel_append each (others.imp fun _ _ makes => makes.back first.clients first.known)

theorem Traffic.weaken (traffic : g.Traffic c id False demands h) :
    g.Traffic c id loading demands h where
  types := traffic.types
  resources x r there := by
    obtain ⟨s, still, remains, data⟩ := traffic.resources x r there
    refine ⟨s, still, remains, data.imp_right ?_⟩
    rintro ⟨same, absurd | none⟩
    · exact absurd.elim
    · exact ⟨same, .inr none⟩
  clients := traffic.clients
  known := traffic.known
  exchanges := traffic.exchanges

/-- The resources, the clients and the record of calls are the same. -/
theorem Quiet.of_same (types : h.types = g.types) (resources : h.resources = g.resources)
    (clients : h.clients = g.clients) (exchanges : h.exchanges = g.exchanges) : g.Quiet h :=
  ⟨types, fun _ r there => ⟨r, resources ▸ there, Resource.remains_lasting.refl r, rfl⟩,
    clients, exchanges⟩

theorem quiet_lasting : Lasting Quiet where
  refl _ := .of_same rfl rfl rfl rfl
  trans {g h i} first second := by
    refine ⟨second.types.trans first.types, fun x r there => ?_, second.clients.trans first.clients,
      second.exchanges.trans first.exchanges⟩
    obtain ⟨s, mid, remains, data⟩ := first.resources x r there
    obtain ⟨u, last, again, same⟩ := second.resources x s mid
    exact ⟨u, last, Resource.remains_lasting.trans remains again, same.trans data⟩

theorem quiet_storing : Act.Storing Quiet where
  lasting := quiet_lasting
  store _ _ _ := .of_same rfl rfl rfl rfl

theorem Quiet.traffic (quiet : g.Quiet h) : g.Traffic c id loading [] h where
  types := quiet.types
  resources x r there := by
    obtain ⟨s, still, remains, data⟩ := quiet.resources x r there
    exact ⟨s, still, remains, .inl data⟩
  clients x d there := ⟨d, quiet.clients ▸ there, Client.goesOn_lasting.refl d⟩
  known := by rw [quiet.clients]
  exchanges := ⟨[], by rw [quiet.exchanges, List.append_nil], .nil⟩

theorem Ready.traffic (ready : g.Ready c id) (traffic : g.Traffic c id loading demands h) :
    h.Ready c id where
  calls := by
    obtain ⟨r, there, client⟩ := ready.calls
    obtain ⟨s, still, remains, _⟩ := traffic.resources id r there
    exact ⟨s, still, remains.client.trans client⟩
  plain s request path loads := by
    obtain ⟨r, there, _⟩ := ready.calls
    obtain ⟨s', still, remains, _⟩ := traffic.resources id r there
    cases still.symm.trans loads.there
    refine ready.plain r request path ⟨there, ?_⟩
    rw [← remains.type, ← traffic.types]
    exact loads.work

theorem Ready.quiet (ready : g.Ready c id) (quiet : g.Quiet h) : h.Ready c id :=
  ready.traffic (quiet.traffic : g.Traffic c id False [] h)

/-- The resource is loaded, where it had no data or was to be loaded anyway. -/
theorem Traffic.withData (traffic : g.Traffic c id False demands h) (free : loading ∨ g.held id = none)
    (v : Datum) : g.Traffic c id loading demands (h.withData id v) where
  types := traffic.types
  resources x r there := by
    obtain ⟨s, still, remains, data⟩ := traffic.weaken.resources x r there
    change ∃ u, (h.resources.modify id _)[x]? = some u ∧ _
    rw [Array.getElem?_modify, still]
    split
    · next same =>
      subst same
      refine ⟨_, rfl, ⟨remains.type, remains.identifiers, remains.client⟩, .inr ⟨rfl, ?_⟩⟩
      exact free.imp_right (held_of_there there).symm.trans
    · exact ⟨s, rfl, remains, data⟩
  clients := traffic.clients
  known := traffic.known
  exchanges := traffic.exchanges

/-- Whatever was called, the load method of a resource is the same. -/
theorem loadCall_traffic (ready : g.Ready c id) (traffic : g.Traffic c id loading demands h) :
    h.loadCall id = g.loadCall id := by
  obtain ⟨r, there, _⟩ := ready.calls
  obtain ⟨s, still, remains, _⟩ := traffic.resources id r there
  unfold loadCall
  rw [there, still, traffic.types]
  simp only [Option.bind_some, remains.type]

/-- Calls leave the data of every resource as it is. -/
theorem reading_calls {kind : Exchange → Prop} (calls : g.Calls kind h) :
    h.reading id = g.reading id := by
  unfold reading loadCall held
  rw [calls.resources, calls.types]

private theorem reading_quiet (ready : g.Ready c id) (quiet : g.Quiet h) :
    h.reading id = g.reading id := by
  obtain ⟨r, there, _⟩ := ready.calls
  obtain ⟨s, still, remains, data⟩ := quiet.resources id r there
  have same : h.held id = g.held id := by
    unfold held
    rw [there, still]
    exact data
  unfold reading
  rw [same, loadCall_traffic ready (quiet.traffic : g.Traffic c id False [] h)]

end Graph

namespace Act

variable {c : ClientId} {id : ResourceId} {α β : Type} {needs further : List Need} {g h : Graph}

/-- The action makes these calls, or the first of them where it fails. -/
structure Issues (c : ClientId) (id : ResourceId) (loading : Prop) (demands : List Demand) (x : Act α)
    (g : Graph) : Prop where
  succeeds : ∀ a h, runIn x g = (.ok a, h) → g.Traffic c id loading demands h
  fails : ∀ f h, runIn x g = (.error f, h) →
    ∃ made, made <+: demands ∧ g.Traffic c id loading made h

/-- The action makes the calls that the needs come to, and the data comes to what these leave. -/
structure Takes (c : ClientId) (id : ResourceId) (needs : List Need) (x : Act α) (g : Graph) : Prop
    extends Issues c id False (Need.demands (g.reading id) needs) x g where
  leaves : ∀ a h, runIn x g = (.ok a, h) → h.reading id = Need.left (g.reading id) needs

variable {x : Act α} {f : α → Act β} {loading : Prop} {demands more : List Demand}

theorem Issues.bind (first : Issues c id loading demands x g)
    (rest : ∀ a mid, runIn x g = (.ok a, mid) → Issues c id loading more (f a) mid) :
    Issues c id loading (demands ++ more) (x >>= f) g where
  succeeds b h ran := by
    obtain ⟨a, mid, gave, ran⟩ := bind_gives.mp ran
    exact (first.succeeds a mid gave).trans ((rest a mid gave).succeeds b h ran)
  fails failure h ran := by
    rcases bind_fails.mp ran with failed | ⟨a, mid, gave, failed⟩
    · obtain ⟨made, early, traffic⟩ := first.fails failure h failed
      exact ⟨made, early.trans (List.prefix_append _ _), traffic⟩
    · obtain ⟨made, early, traffic⟩ := (rest a mid gave).fails failure h failed
      exact ⟨demands ++ made, (List.prefix_append_right_inj _).mpr early,
        (first.succeeds a mid gave).trans traffic⟩

/-- Nothing more is called after the first action. -/
theorem Issues.andThen (first : Issues c id loading demands x g)
    (rest : ∀ a mid, runIn x g = (.ok a, mid) → Issues c id loading [] (f a) mid) :
    Issues c id loading demands (x >>= f) g := by
  have both := first.bind rest
  rw [List.append_nil] at both
  exact both

theorem Issues.weaken (issues : Issues c id False demands x g) : Issues c id loading demands x g where
  succeeds a h ran := (issues.succeeds a h ran).weaken
  fails f h ran := by
    obtain ⟨made, early, traffic⟩ := issues.fails f h ran
    exact ⟨made, early, traffic.weaken⟩

/-- An action that fails at once calls nothing, which is how all calls begin. -/
theorem Issues.of_failed {failure : Failure} (failed : runIn x g = (.error failure, g)) :
    Issues c id loading demands x g where
  succeeds a h ran := by
    rw [failed] at ran
    cases ran
  fails f h ran := by
    rw [failed] at ran
    cases ran
    exact ⟨[], List.nil_prefix, (quiet_lasting.refl g).traffic⟩

theorem Issues.fail (failure : Failure) : Issues c id loading demands (Act.fail failure : Act α) g :=
  .of_failed rfl

/-- The first action only looks at the graph, which is the same for what follows. -/
theorem Issues.lookAt (looks : Looks x)
    (rest : ∀ a, runIn x g = (.ok a, g) → Issues c id loading demands (f a) g) :
    Issues c id loading demands (x >>= f) g := by
  rcases ran : runIn x g with ⟨failure | a, mid⟩ <;> obtain rfl := looks.same ran
  · exact .of_failed (runIn_bind_error ran)
  · have next : runIn (x >>= f) g = runIn (f a) g := runIn_bind_ok ran
    obtain ⟨succeeds, fails⟩ := rest a ran
    exact ⟨fun b h gave => succeeds b h (next ▸ gave),
      fun failure h gave => fails failure h (next ▸ gave)⟩

theorem issues_of_quiet (keeps : Keeps Quiet x) (g : Graph) : Issues c id loading [] x g where
  succeeds _ _ ran := (keeps.related ran).traffic
  fails _ _ ran := ⟨[], List.prefix_refl _, (keeps.related ran).traffic⟩

namespace Takes

theorem quiet (ready : g.Ready c id) (keeps : Keeps Quiet x) : Takes c id [] x g where
  toIssues := issues_of_quiet keeps g
  leaves _ _ ran := reading_quiet ready (keeps.related ran)

theorem issues (takes : Takes c id needs x g) (same : Need.demands (g.reading id) needs = demands) :
    Issues c id loading demands x g := same ▸ takes.toIssues.weaken

theorem ready (takes : Takes c id needs x g) (ready : g.Ready c id) {a : α}
    (ran : runIn x g = (.ok a, h)) : h.Ready c id := ready.traffic (takes.succeeds a h ran)

/-- The needs of two actions in a row are those of the one and then those of the other. -/
theorem bind (ready : g.Ready c id) (first : Takes c id needs x g)
    (rest : ∀ a mid, runIn x g = (.ok a, mid) → mid.Ready c id → Takes c id further (f a) mid) :
    Takes c id (needs ++ further) (x >>= f) g where
  toIssues := by
    rw [Need.demands_append]
    refine first.toIssues.bind fun a mid gave => ?_
    rw [← first.leaves a mid gave]
    exact (rest a mid gave (first.ready ready gave)).toIssues
  leaves b h ran := by
    obtain ⟨a, mid, gave, ran⟩ := bind_gives.mp ran
    rw [(rest a mid gave (first.ready ready gave)).leaves b h ran, first.leaves a mid gave,
      Need.left_append]

/-- The first action needs one thing. -/
theorem next {need : Need} (ready : g.Ready c id) (first : Takes c id [need] x g)
    (rest : ∀ a mid, runIn x g = (.ok a, mid) → mid.Ready c id → Takes c id further (f a) mid) :
    Takes c id (need :: further) (x >>= f) g := bind ready first rest

/-- The first action needs nothing. -/
theorem skip (ready : g.Ready c id) (first : Takes c id [] x g)
    (rest : ∀ a mid, runIn x g = (.ok a, mid) → mid.Ready c id → Takes c id needs (f a) mid) :
    Takes c id needs (x >>= f) g := bind ready first rest

theorem look (ready : g.Ready c id) (keeps : Keeps Quiet x)
    (rest : ∀ a mid, runIn x g = (.ok a, mid) → mid.Ready c id → Takes c id needs (f a) mid) :
    Takes c id needs (x >>= f) g := skip ready (quiet ready keeps) rest

/-- The first action only looks at the graph, which is the same for what follows. -/
theorem lookAt (looks : Looks x) (rest : ∀ a, runIn x g = (.ok a, g) → Takes c id needs (f a) g) :
    Takes c id needs (x >>= f) g where
  toIssues := .lookAt looks fun a ran => (rest a ran).toIssues
  leaves b h ran := by
    obtain ⟨a, mid, gave, ran⟩ := bind_gives.mp ran
    obtain rfl := looks.same gave
    exact (rest a gave).leaves b h ran

/-- What follows calls nothing. -/
theorem andQuiet (ready : g.Ready c id) (first : Takes c id needs x g) (rest : ∀ a, Keeps Quiet (f a)) :
    Takes c id needs (x >>= f) g := by
  have both := bind ready first fun a mid _ ready => quiet ready (rest a)
  rw [List.append_nil] at both
  exact both

theorem pure (ready : g.Ready c id) (a : α) : Takes c id [] (Pure.pure a : Act α) g :=
  quiet ready (.pure quiet_lasting a)

theorem fail (failure : Failure) : Takes c id needs (Act.fail failure : Act α) g :=
  ⟨.fail failure, fun a h ran => by cases ran⟩

theorem foldlM {step : β → α → Act β} {items : List α} {needsOf : α → List Need} (ready : g.Ready c id)
    (each : ∀ g b, ∀ a ∈ items, g.Ready c id → Takes c id (needsOf a) (step b a) g) (b : β) :
    Takes c id (items.flatMap needsOf) (items.foldlM step b) g := by
  induction items generalizing g b with
  | nil => exact pure ready b
  | cons first rest ih =>
    rw [List.foldlM_cons, List.flatMap_cons]
    refine bind ready (each g b first List.mem_cons_self ready) fun b mid _ ready => ?_
    exact ih ready (fun g b a member => each g b a (List.mem_cons_of_mem _ member)) b

end Takes

theorem quiet_of_looks {x : Act α} (looks : Looks x) : Keeps Quiet x := looks.keeps quiet_lasting

/-! ## Calls -/

/-- To note a call is to make it. -/
theorem note_takes {demand : Demand} {x : Exchange} (makes : g.Makes c demand x) :
    Takes c id [.call demand] (note x) g where
  succeeds a h ran := by
    cases ran
    exact ⟨rfl, fun _ r there => ⟨r, there, Resource.remains_lasting.refl r, .inl rfl⟩,
      fun _ d there => ⟨d, there, Client.goesOn_lasting.refl d⟩, rfl, [x], by simp, .cons makes .nil⟩
  fails f h ran := by cases ran
  leaves a h ran := by
    cases ran
    rfl

private theorem replaceClient_takes {x : ClientId} {d e : Client} (there : g.clients[x]? = some d)
    (on : d.GoesOn e) :
    Takes c id [] (replaceClient x e) g where
  succeeds a h ran := by
    cases ran
    refine ⟨rfl, fun _ r there => ⟨r, there, Resource.remains_lasting.refl r, .inl rfl⟩,
      fun y f found => ?_,
      by simp, [], by simp, .nil⟩
    dsimp only
    by_cases same : x = y
    · subst same
      have inside := (Array.getElem?_eq_some_iff.mp there).1
      cases there.symm.trans found
      exact ⟨e, by simp [inside], on⟩
    · exact ⟨f, by simp [same, found], Client.goesOn_lasting.refl f⟩
  fails f h ran := by cases ran
  leaves a h ran := by
    cases ran
    rfl

/-- To send a request of the route of a method. -/
theorem send_issues {demand : Demand} {client : HttpClient} {route : Route}
    (served : g.clients[c]? = some (.http client)) (routed : client.route demand.method = .ok route)
    (method : String) (params : Datum) :
    Issues c id loading [demand] (send c client method route params) g := by
  refine .lookAt (entriesOf_looks params) fun entries _ => ?_
  refine .lookAt (.get eq_lasting) fun now _ => .lookAt (lift_looks _) fun addressed _ => ?_
  refine .lookAt (sentTree_looks _ _) fun sent _ => ?_
  refine .andThen (note_takes (.http served routed)).toIssues.weaken fun _ mid noted => ?_
  have still : mid.clients[c]? = some (.http client) := by
    cases noted
    exact served
  split
  · exact .fail _
  · next reply rest left =>
    have on : (Client.http client).GoesOn (.http { client with replies := rest }) :=
      ⟨rfl, left ▸ List.suffix_cons reply rest⟩
    refine .andThen (replaceClient_takes still on).toIssues.weaken fun _ last _ => ?_
    refine .lookAt (lift_looks _) fun data _ => issues_of_quiet ?_ last
    exact .bind quiet_lasting (receive_keeps quiet_storing.taking data) fun _ => .pure quiet_lasting _

/-- A single call of a client. -/
theorem call_issues (c : ClientId) (method : String) (params : Datum) (g : Graph) :
    Issues c id loading [.single method] (call c method params) g := by
  refine .lookAt (client_looks c) fun client served => ?_
  obtain ⟨there, _⟩ := client_gives served
  cases client with
  | prepared script =>
    refine .lookAt (tree_looks params) fun sent _ => ?_
    refine .andThen (note_takes .single).toIssues.weaken fun _ mid noted => ?_
    have still : mid.clients[c]? = some (.prepared script) := by
      cases noted
      exact there
    have on : (Client.prepared script).GoesOn (.prepared (script.askedOnceMore method)) := ⟨rfl, rfl⟩
    refine .andThen (replaceClient_takes still on).toIssues.weaken fun _ last _ => ?_
    exact issues_of_quiet (respond_keeps quiet_storing.taking _ _) last
  | http client =>
    refine .lookAt (lift_looks _) fun route routed => ?_
    have found : client.route (Demand.single method).method = .ok route := (lift_gives routed).1
    exact send_issues there found method params
  | standIn v => exact .fail _

/-- A request of the route of a method leaves the data as it is. -/
theorem send_takes {demand : Demand} {client : HttpClient} {route : Route}
    (served : g.clients[c]? = some (.http client)) (routed : client.route demand.method = .ok route)
    (method : String) (params : Datum) :
    Takes c id [.call demand] (send c client method route params) g where
  toIssues := send_issues served routed method params
  leaves a h ran := by
    have calls : Calls anyCall g (runIn (send c client method route params) g).2 :=
      send_keeps serving_calls (fun _ _ => trivial) client method route params g served
    rw [ran] at calls
    exact reading_calls calls

/-- A single call of a client leaves the data as it is. -/
theorem call_takes (c : ClientId) (method : String) (params : Datum) (g : Graph) :
    Takes c id [.call (.single method)] (call c method params) g where
  toIssues := call_issues c method params g
  leaves a h ran := by
    have calls : Calls anyCall g (runIn (call c method params) g).2 :=
      call_keeps serving_calls (fun _ _ => trivial) c method params g
    rw [ran] at calls
    exact reading_calls calls

/-! ## Loading -/

section Loading

variable {r : Resource} {request : Request} {path : String}

/-- The response of a request that reads no data is searched after one call. -/
theorem searched_takes (ready : g.Ready c id) (plain : request.ReadsNoData) (path : String)
    (context : Context) : Takes c id [.call (.single request.method)] (do
      let params ← buildParams data request context
      let response ← call c request.method params
      search path response.data) g := by
  refine .look ready (buildParams_keeps_plain quiet_storing plain context) fun params mid _ ready => ?_
  exact .andQuiet ready (call_takes c _ _ _) fun response => search_keeps quiet_storing _ _

/-- How one load goes is how the call and the search go. -/
theorem runIn_of_loading {context : Context} {turn : Turn}
    (loading : Loading c request path context g turn h) :
    let searched : Act Datum := do
      let params ← buildParams data request context
      let response ← call c request.method params
      search path response.data
    (∀ v, turn.became = some v → runIn searched g = (.ok v, h)) ∧
      ∀ f, turn.failure? = some f → runIn searched g = (.error f, h) := by
  cases loading with
  | unbuilt built =>
    refine ⟨nofun, fun f same => ?_⟩
    cases same
    exact runIn_bind_error built
  | refused built called =>
    refine ⟨nofun, fun f same => ?_⟩
    cases same
    rw [runIn_bind_ok built, runIn_bind_error called]
  | unfound built called searched =>
    refine ⟨nofun, fun f same => ?_⟩
    cases same
    rw [runIn_bind_ok built, runIn_bind_ok called, searched]
  | loaded built called searched =>
    refine ⟨fun v same => ?_, nofun⟩
    cases same
    rw [runIn_bind_ok built, runIn_bind_ok called, searched]

/-- An action that goes as a load goes makes one call of the load method. -/
theorem issues_of_loading {x : Act α} {turn : Turn} {mid : Graph} {context : Context}
    (ready : g.Ready c id) (plain : request.ReadsNoData) (free : loading ∨ g.held id = none)
    (went : Loading c request path context g turn mid)
    (ran : (∃ v a, turn.became = some v ∧ runIn x g = (.ok a, mid.withData id v)) ∨
      ∃ f other, turn.failure? = some f ∧ runIn x g = (.error other, mid)) :
    Issues c id loading [.single request.method] x g := by
  have taken := searched_takes ready plain path context
  obtain ⟨found, failed⟩ := runIn_of_loading went
  rcases ran with ⟨v, a, became, ran⟩ | ⟨f, other, refused, ran⟩
  · refine ⟨fun a h gave => ?_, fun f h gave => ?_⟩ <;> rw [ran] at gave <;> cases gave
    exact (taken.succeeds v mid (found v became)).withData free v
  · refine ⟨fun a h gave => ?_, fun f h gave => ?_⟩ <;> rw [ran] at gave <;> cases gave
    obtain ⟨made, early, traffic⟩ := taken.fails f mid (failed f refused)
    exact ⟨made, early, traffic.weaken⟩

/-- A resource whose type has no load request cannot be loaded, and nothing is called. -/
theorem runIn_load_unsupported (there : g.resources[id]? = some r)
    (unsupported : ∀ request path, ¬ g.Loads id r request path) (params : Json) :
    ∃ f, runIn (load id params) g = (.error f, g) := by
  have resourced : runIn (resource id) g = (.ok r, g) := resource_runs there
  unfold load loadBy
  rw [runIn_bind_ok resourced, runIn_bind_ok (runIn_typeOf _ _)]
  split
  · next request path work => exact absurd (loads_of_typeOf there work) (unsupported request path)
  · exact ⟨_, rfl⟩

theorem loadCall_of_loads (loads : g.Loads id r request path) :
    g.loadCall id = [.single request.method] := by
  unfold Graph.loadCall
  rw [loads.there, Option.bind_some, loads.work]

/-- To load a resource is one call of its load method, if it has one. -/
theorem load_issues (ready : g.Ready c id) (params : Json) :
    Issues c id True (g.loadCall id) (load id params) g := by
  obtain ⟨r, there, rfl⟩ := ready.calls
  by_cases supported : ∃ request path, g.Loads id r request path
  · obtain ⟨request, path, loads⟩ := supported
    have plain := ready.plain r request path loads
    obtain ⟨turn, mid, went, ran⟩ := loading_of_load loads plain params
    rw [loadCall_of_loads loads]
    refine issues_of_loading ready plain (.inl trivial) went (ran.imp ?_ ?_)
    · rintro ⟨v, became, ran⟩
      exact ⟨v, (), became, ran⟩
    · rintro ⟨f, _, refused, ran⟩
      exact ⟨f, f, refused, ran⟩
  · obtain ⟨f, failed⟩ := runIn_load_unsupported there (fun request path loads =>
      supported ⟨request, path, loads⟩) params
    exact .of_failed failed

/-- To read data that is not there is to load it, if this is possible. Then it is there. -/
theorem loadedData_issues (ready : g.Ready c id) (absent : g.held id = none) :
    Issues c id False (g.loadCall id) (loadedData id) g ∧
      ∀ v h, runIn (loadedData id) g = (.ok v, h) → h.held id = some v := by
  obtain ⟨r, there, rfl⟩ := ready.calls
  by_cases supported : ∃ request path, g.Loads id r request path
  · obtain ⟨request, path, loads⟩ := supported
    have plain := ready.plain r request path loads
    obtain ⟨turn, mid, went, ran⟩ := runIn_loadedData loads plain
    rw [loadCall_of_loads loads]
    refine ⟨issues_of_loading ready plain (.inr absent) went (ran.imp ?_ ?_), fun v h gave => ?_⟩
    · rintro ⟨v, became, ran⟩
      exact ⟨v, v, became, ran⟩
    · rintro ⟨f, refused, ran⟩
      exact ⟨f, _, refused, ran⟩
    · rcases ran with ⟨w, _, ran⟩ | ⟨f, _, ran⟩ <;> rw [ran] at gave <;> cases gave
      exact held_withData (loads.of_calls (calls_of_loading plain went)).there v
  · obtain ⟨f, failed⟩ := runIn_load_unsupported there (fun request path loads =>
      supported ⟨request, path, loads⟩) .null
    have resourced : runIn (resource id) g = (.ok r, g) := resource_runs there
    have ran : ∃ other, runIn (loadedData id) g = (.error other, g) := by
      unfold load at failed
      unfold loadedData loadedBy
      rw [runIn_tryCatch, runIn_bind_error failed]
      dsimp only
      split
      · exact ⟨_, by rw [runIn_bind_ok resourced]; rfl⟩
      · exact ⟨f, rfl⟩
    obtain ⟨other, failed⟩ := ran
    refine ⟨.of_failed failed, fun v h gave => ?_⟩
    rw [failed] at gave
    cases gave

/-- Reading the data of a resource needs the data, and nothing else. -/
theorem data_takes (ready : g.Ready c id) : Takes c id [.data] (data id) g := by
  obtain ⟨r, there, _⟩ := ready.calls
  have demands : Need.demands (g.reading id) [.data] = g.reading id := by simp [Need.demands]
  cases held : g.held id with
  | some v =>
    have none : g.reading id = [] := by simp [Graph.reading, held]
    have ran := runIn_data_held held
    refine ⟨⟨fun a h gave => ?_, fun f h gave => ?_⟩,
      fun a h gave => ?_⟩ <;> rw [ran] at gave <;> cases gave
    · rw [demands, none]
      exact (quiet_lasting.refl g).traffic
    · exact none
  | none =>
    have first : g.reading id = g.loadCall id := by simp [Graph.reading, held]
    have read : runIn (data id) g = runIn (loadedData id) g := by
      unfold data
      rw [runIn_cachedOr there, (held_of_there there).symm.trans held]
    obtain ⟨⟨succeeds, fails⟩, loaded⟩ := loadedData_issues ready held
    rw [← read] at succeeds fails loaded
    refine ⟨?_, fun v h ran => ?_⟩
    · rw [demands, first]
      exact ⟨succeeds, fails⟩
    · simp [Graph.reading, loaded v h ran, Need.left]

end Loading

end Act

end ResourceGraph
