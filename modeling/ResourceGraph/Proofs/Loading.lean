import ResourceGraph.Graph.Access
import ResourceGraph.Proofs.Invoking

/-!
How one load goes. A request whose projections read no data builds its parameters from the store
alone; they are sent with one call of its method; and what is found at the path of the response
becomes the data. Where any of this fails, the data stays.
-/

namespace ResourceGraph

open ResourceGraph.Graph Store

/-- The data that a resource holds, if it is loaded. -/
def Graph.held (g : Graph) (id : ResourceId) : Option Datum := (g.resources[id]?).bind Resource.data

/-- The graph in which a resource has other data. -/
def Graph.withData (g : Graph) (id : ResourceId) (v : Datum) : Graph :=
  { g with resources := g.resources.modify id fun r => { r with data := some v } }

/-- No projection of the request reads data. -/
def Request.ReadsNoData (r : Request) : Prop := ∀ p ∈ r.params, p.source.kind ≠ .dataMember

/-- The identifiers of a resource that a request projects. -/
def Request.projected (request : Request) (r : Resource) : List Datum :=
  request.params.filterMap fun p =>
    match p.source with
    | .identifier (.str name) => Keyed.get? r.identifiers name
    | _ => none

/-- What a use of data comes to. Where the load method is called, this is with the tree that its
parameters spell, if they spell one. -/
inductive Turn
  /-- The data is there and stays, and nothing is called. -/
  | kept
  | assigned (v : Datum)
  /-- The parameters cannot be built, and nothing is called. -/
  | unbuilt (f : Failure)
  /-- The call fails. -/
  | refused (sent : Option Json) (f : Failure)
  /-- The path of the response fails. -/
  | unfound (sent : Option Json) (f : Failure)
  | loaded (sent : Option Json) (v : Datum)

namespace Turn

/-- The calls of the load method. -/
def calls : Turn → List (Option Json)
  | kept | assigned _ | unbuilt _ => []
  | refused sent _ | unfound sent _ | loaded sent _ => [sent]

/-- What the data becomes. -/
def became : Turn → Option Datum
  | assigned v | loaded _ v => some v
  | _ => none

/-- Why the data could not be loaded. -/
def failure? : Turn → Option Failure
  | unbuilt f | refused _ f | unfound _ f => some f
  | _ => none

end Turn

/-- How one load goes, and the graph that it leaves before the data is replaced. -/
inductive Loading (client : ClientId) (request : Request) (path : String) (context : Context)
    (g : Graph) : Turn → Graph → Prop
  | unbuilt {f : Failure} {h : Graph}
    (built : runIn (Act.buildParams Act.data request context) g = (.error f, h)) :
    Loading client request path context g (.unbuilt f) h
  | refused {f : Failure} {params : Datum} {mid h : Graph}
    (built : runIn (Act.buildParams Act.data request context) g = (.ok params, mid))
    (called : runIn (Act.call client request.method params) mid = (.error f, h)) :
    Loading client request path context g (.refused (mid.store.shownTree? params) f) h
  | unfound {f : Failure} {params : Datum} {response : Response} {mid last h : Graph}
    (built : runIn (Act.buildParams Act.data request context) g = (.ok params, mid))
    (called : runIn (Act.call client request.method params) mid = (.ok response, last))
    (searched : runIn (Act.search path response.data) last = (.error f, h)) :
    Loading client request path context g (.unfound (mid.store.shownTree? params) f) h
  | loaded {v params : Datum} {response : Response} {mid last h : Graph}
    (built : runIn (Act.buildParams Act.data request context) g = (.ok params, mid))
    (called : runIn (Act.call client request.method params) mid = (.ok response, last))
    (searched : runIn (Act.search path response.data) last = (.ok v, h)) :
    Loading client request path context g (.loaded (mid.store.shownTree? params) v) h

/-- The resource is there, and the load operation of its type calls for a request and reads a path. -/
structure Graph.Loads (g : Graph) (id : ResourceId) (r : Resource) (request : Request) (path : String) :
    Prop where
  there : g.resources[id]? = some r
  work : ((g.types[r.type.index]?).bind ResourceType.load).map Operation.work = some (.load request path)

namespace Act

variable {g h : Graph} {id : ResourceId} {r : Resource} {request : Request} {path : String}
  {context : Context}

/-! ## Parameters without data -/

private theorem project_eq {read other : ResourceId → Act Datum} {p : Projection}
    (reads : p.source.kind ≠ .dataMember) (caller : Option ResourceId) :
    project read caller p = project other caller p := by
  unfold project
  cases source : p.source with
  | dataMember path =>
    rw [source] at reads
    exact absurd rfl reads
  | identifier name => cases caller <;> cases name <;> rfl
  | text s => cases caller <;> rfl
  | integer n => cases caller <;> rfl
  | flag b => cases caller <;> rfl

/-- Projections that read no data are written the same, however data is read. -/
theorem foldlM_apply_eq {projections : List Projection}
    (plain : ∀ p ∈ projections, p.source.kind ≠ .dataMember) (read other : ResourceId → Act Datum)
    (caller : Option ResourceId) (start : Keyed Datum) :
    projections.foldlM (apply read caller) start = projections.foldlM (apply other caller) start := by
  induction projections generalizing start with
  | nil => rfl
  | cons p rest ih =>
    have one : apply read caller start p = apply other caller start p := by
      unfold apply
      rw [project_eq (plain p List.mem_cons_self) caller]
    rw [List.foldlM_cons, List.foldlM_cons, one]
    congr 1
    funext next
    exact ih (fun p member => plain p (List.mem_cons_of_mem _ member)) next

/-- Parameters that read no data are built the same, however data is read. -/
theorem buildParams_eq (plain : request.ReadsNoData) (read other : ResourceId → Act Datum)
    (context : Context) : buildParams read request context = buildParams other request context := by
  unfold buildParams
  simp only [foldlM_apply_eq plain read other]

/-- Parameters that read no data change the store and nothing else. -/
theorem buildParams_keeps_plain {R : Graph → Graph → Prop} (storing : Storing R)
    (plain : request.ReadsNoData) (context : Context) : Keeps R (buildParams data request context) := by
  rw [buildParams_eq plain data (fun _ => misuse .endless) context]
  exact buildParams_keeps storing (fun _ => .throw storing.lasting _) request context

/-! ## Loading -/

theorem typeOf_of_loads (loads : g.Loads id r request path) :
    (((g.types[r.type.index]?).getD { name := r.type.name }).load).map Operation.work =
      some (.load request path) := by
  have work := loads.work
  cases found : g.types[r.type.index]? with
  | none =>
    rw [found] at work
    cases work
  | some type =>
    rw [found] at work
    exact work

theorem loads_of_typeOf (there : g.resources[id]? = some r)
    (work : (((g.types[r.type.index]?).getD { name := r.type.name }).load).map Operation.work =
      some (.load request path)) : g.Loads id r request path := by
  refine ⟨there, ?_⟩
  cases found : g.types[r.type.index]? with
  | none =>
    rw [found] at work
    cases work
  | some type =>
    rw [found] at work
    exact work

/-- A load that reads no data is the same, however data would be read. -/
theorem runIn_loadBy (loads : g.Loads id r request path) (plain : request.ReadsNoData)
    (read : ResourceId → Act Datum) (params : Json) :
    runIn (loadBy read id params) g = runIn (do
      let sent ← buildParams data request { caller := some id, params }
      let response ← call r.client request.method sent
      setData id (← search path response.data)) g := by
  have resourced : runIn (resource id) g = (.ok r, g) := resource_runs loads.there
  unfold loadBy
  rw [runIn_bind_ok resourced, runIn_bind_ok (runIn_typeOf _ _), typeOf_of_loads loads]
  dsimp only
  unfold runLoad sendRequest
  rw [buildParams_eq plain _ data, bind_assoc, runIn_bind, runIn_bind]
  rcases built : runIn (buildParams data request { caller := some id, params }) g with ⟨f | sent, mid⟩
  · rfl
  · have same : Graph.Calls anyCall g
        (runIn (buildParams data request { caller := some id, params }) g).2 :=
      buildParams_keeps_plain storing_calls plain { caller := some id, params } g
    rw [built] at same
    have still : runIn (callerOf { caller := some id, params }) mid = (.ok r, mid) :=
      callerOf_runs rfl (by rw [same.resources, loads.there])
    dsimp only
    rw [bind_assoc, runIn_bind_ok still]

/-- A load goes in one of the ways, and sets the data where a value is found. -/
theorem loading_of_load (loads : g.Loads id r request path) (plain : request.ReadsNoData)
    (params : Json) :
    ∃ turn mid, Loading r.client request path { caller := some id, params } g turn mid ∧
      ((∃ v, turn.became = some v ∧ runIn (load id params) g = (.ok (), mid.withData id v)) ∨
        ∃ f, turn.became = none ∧ turn.failure? = some f ∧
          runIn (load id params) g = (.error f, mid)) := by
  unfold load
  rw [runIn_loadBy loads plain, runIn_bind]
  rcases built : runIn (buildParams data request { caller := some id, params }) g with ⟨f | sent, mid⟩
  · exact ⟨.unbuilt f, mid, .unbuilt built, .inr ⟨f, rfl, rfl, rfl⟩⟩
  · dsimp only
    rw [runIn_bind]
    rcases called : runIn (call r.client request.method sent) mid with ⟨f | response, last⟩
    · exact ⟨_, last, .refused built called, .inr ⟨f, rfl, rfl, rfl⟩⟩
    · dsimp only
      rw [runIn_bind]
      rcases searched : runIn (search path response.data) last with ⟨f | v, h⟩
      · exact ⟨_, h, .unfound built called searched, .inr ⟨f, rfl, rfl, rfl⟩⟩
      · exact ⟨_, h, .loaded built called searched, .inl ⟨v, rfl, rfl⟩⟩

/-! ## What a load leaves as it is -/

/-- A load that reads no data changes the graph as calls do, before the data is replaced. -/
theorem calls_of_loading {turn : Turn} {client : ClientId} (plain : request.ReadsNoData)
    (loading : Loading client request path context g turn h) : Graph.Calls Exchange.Single g h := by
  have building : Keeps (Graph.Calls Exchange.Single) (buildParams data request context) :=
    buildParams_keeps_plain storing_calls plain context
  have calling : ∀ params, Keeps (Graph.Calls Exchange.Single) (call client request.method params) :=
    call_keeps serving_calls (fun _ single => single) client request.method
  have searching : ∀ v, Keeps (Graph.Calls Exchange.Single) (search path v) :=
    search_keeps storing_calls path
  cases loading with
  | unbuilt built =>
    have changed := building g
    rw [built] at changed
    exact changed
  | @refused f params mid _ built called =>
    have first := building g
    have second := calling params mid
    rw [built] at first
    rw [called] at second
    exact calls_lasting.trans first second
  | @unfound f params response mid last _ built called searched
  | @loaded v params response mid last _ built called searched =>
    have first := building g
    have second := calling params mid
    have third := searching response.data last
    rw [built] at first
    rw [called] at second
    rw [searched] at third
    exact calls_lasting.trans (calls_lasting.trans first second) third

end Act

end ResourceGraph
