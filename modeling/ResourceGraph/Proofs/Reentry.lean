import ResourceGraph.Graph.Open
import ResourceGraph.Proofs.Demands
import ResourceGraph.Proofs.Nesting
import ResourceGraph.Proofs.WellFormed

/-!
Which loads come to an end. A load whose request reads no data, and one of a resource that has data,
begins no other load: it makes one call, or fails before it or with it. A load of absent data whose
request reads that data is never done, and neither is a read of the data, because each begins a load
of the same resource again.
-/

namespace ResourceGraph

open ResourceGraph.Graph Store

/-- To load the resource begins no other load: what would be done to read data that is not there is
not done. -/
def Graph.LoadsAlone (g : Graph) (id : ResourceId) (params : Json) : Prop :=
  ∀ otherwise : ResourceId → Act Datum,
    runIn (Act.loadBy (fun x => Act.cachedOr (otherwise x) x) id params) g = runIn (Act.load id params) g

/-- To load the resource, under either name, is one call of the method, or fails before it or with
it, and begins no other load. To read its data is the same where it is not there, and else calls
nothing. -/
structure Graph.LoadsEnd (g : Graph) (id : ResourceId) (c : ClientId) (method : String) : Prop where
  alone : ∀ params, g.LoadsAlone id params
  loads : ∀ name ∈ ["load", "reload"], ∀ unnamed named,
    Act.Issues c id True [.single method] (Act.callNamed id name unnamed named) g
  reads : Act.Issues c id False (if (g.held id).isSome then [] else [.single method]) (Act.data id) g

/-- However many loads may lie inside each other, none of the resource is done and its data is not
read; only the store is changed, and nothing is called. Where the request can write what it writes
before it reads data, this is because there are never enough of them. -/
structure Graph.LoadsReenter (g : Graph) (id : ResourceId) (request : Request) : Prop where
  loads : ∀ depth params, ∃ f h,
    runIn (Act.loadBy (Act.dataWithin depth) id params) g = (.error f, h) ∧ g.Stores h
  reads : ∀ depth, ∃ f h, runIn (Act.dataWithin depth id) g = (.error f, h) ∧ g.Stores h
  endless : request.AlwaysOpens id g → ∀ depth,
    (∃ h, runIn (Act.loadBy (Act.dataWithin depth) id .null) g = (.error (.misuse .endless), h)) ∧
      ∃ h, runIn (Act.dataWithin depth id) g = (.error (.misuse .endless), h)

namespace Act

variable {g h : Graph} {id : ResourceId} {r : Resource} {request : Request} {path : String}
    {params : Json}
  {read : ResourceId → Act Datum} {v : Datum}

/-! ## Reading what is there -/

private theorem runIn_cachedOr_held {otherwise : Act Datum} (held : g.held id = some v) :
    runIn (cachedOr otherwise id) g = (.ok v, g) := by
  unfold Graph.held at held
  obtain ⟨r, there, found⟩ := Option.bind_eq_some_iff.mp held
  rw [runIn_cachedOr there, found]

private theorem runIn_dataWithin_held (depth : Nat) (held : g.held id = some v) :
    runIn (dataWithin depth id) g = (.ok v, g) := by
  cases depth with
  | zero => exact runIn_cachedOr_held held
  | succ depth => exact runIn_cachedOr_held held

private theorem held_of_stores (stores : g.Stores h) : h.held id = g.held id := by
  obtain ⟨s, _, rfl⟩ := stores
  rfl

section Agreeing

variable (agree : ∀ mid, g.Stores mid → runIn (read id) mid = (.ok v, mid))

include agree

private theorem apply_agrees (written : Keyed Datum) (p : Projection) :
    runIn (apply read (some id) written p) g =
      runIn (apply (fun _ => pure v) (some id) written p) g := by
  have same : runIn (project read (some id) p) g = runIn (project (fun _ => pure v) (some id) p) g := by
    unfold project
    split
    case h_9 path _ source called =>
      cases called
      rw [runIn_bind_ok (agree g (stores_lasting.refl g)), runIn_bind_ok (runIn_pure v g)]
    all_goals rfl
  unfold apply
  rw [runIn_bind, runIn_bind, same]

/-- Where reading gives the same as long as only the store changes, the parameters are the same. -/
theorem buildParams_agrees (request : Request) (params : Json) :
    runIn (buildParams read request { caller := some id, params }) g =
      runIn (buildParams (fun _ => pure v) request { caller := some id, params }) g := by
  have each : ∀ (projections : List Projection) (h : Graph), g.Stores h → ∀ written : Keyed Datum,
      runIn (projections.foldlM (apply read (some id)) written) h =
        runIn (projections.foldlM (apply (fun _ => pure v) (some id)) written) h := by
    intro projections
    induction projections with
    | nil => intro h _ written; rfl
    | cons p rest ih =>
      intro h stores written
      have kept := apply_keeps storing_stores (fun _ => .pure stores_lasting v) (some id) written p h
      rw [List.foldlM_cons, List.foldlM_cons, runIn_bind, runIn_bind,
        apply_agrees fun mid further => agree mid (stores_lasting.trans stores further)]
      rcases ran : runIn (apply (fun _ => pure v) (some id) written p) h with ⟨f | next, mid⟩
      · rfl
      · rw [ran] at kept
        exact ih mid (stores_lasting.trans stores kept) next
  unfold buildParams
  rw [runIn_bind, runIn_bind, runIn_liftResult]
  cases copyParams params with
  | error f => rfl
  | ok start =>
    dsimp only
    rw [runIn_bind, runIn_bind, each request.params g (stores_lasting.refl g)]

private theorem loadBy_agrees (params : Json) :
    runIn (loadBy read id params) g = runIn (loadBy (fun _ => pure v) id params) g := by
  unfold loadBy
  rw [runIn_bind, runIn_bind]
  rcases found : runIn (resource id) g with ⟨f | r, mid⟩
  · rfl
  · obtain rfl := (resource_looks id).same found
    dsimp only
    rw [runIn_bind_ok (runIn_typeOf _ _), runIn_bind_ok (runIn_typeOf _ _)]
    split
    · next request path _ =>
      unfold runLoad sendRequest
      rw [bind_assoc, bind_assoc, runIn_bind, runIn_bind, buildParams_agrees agree request params]
    · rfl

end Agreeing

/-! ## Loads that end -/

private theorem alone_of_held (held : g.held id = some v) (params : Json) : g.LoadsAlone id params := by
  intro otherwise
  have still : ∀ mid, g.Stores mid → mid.held id = some v :=
    fun mid stores => (held_of_stores stores).trans held
  have same : ∀ read : ResourceId → Act Datum,
      (∀ mid, g.Stores mid → runIn (read id) mid = (.ok v, mid)) →
      runIn (loadBy read id params) g = runIn (loadBy (fun _ => pure v) id params) g :=
    fun _ agree => loadBy_agrees agree params
  have inside := same (dataWithin nestedLoads) fun mid stores =>
    runIn_dataWithin_held nestedLoads (still mid stores)
  have outside := same (fun x => cachedOr (otherwise x) x) fun mid stores =>
    runIn_cachedOr_held (still mid stores)
  exact outside.trans inside.symm

private theorem alone_of_plain (loads : g.Loads id r request path) (plain : request.ReadsNoData)
    (params : Json) :
    g.LoadsAlone id params := by
  intro otherwise
  unfold load
  rw [runIn_loadBy loads plain, runIn_loadBy loads plain]

/-- A load that reads data quietly makes one call. -/
theorem loadBy_issues (quiet : ∀ x, Keeps Quiet (read x)) (loads : g.Loads id r request path)
    (params : Json) :
    Issues r.client id True [.single request.method] (loadBy read id params) g := by
  refine .lookAt (resource_looks id) fun s found => ?_
  cases loads.there.symm.trans (resource_gives found).1
  refine .lookAt (typeOf_looks _) fun type typed => ?_
  rw [runIn_typeOf, Prod.mk.injEq, Except.ok.injEq] at typed
  rw [← typed.1, typeOf_of_loads loads]
  unfold runLoad sendRequest
  dsimp only
  rw [bind_assoc]
  have building := buildParams_keeps quiet_storing quiet request { caller := some id, params }
  refine Issues.bind (issues_of_quiet building g) fun sent mid built => ?_
  rw [bind_assoc]
  refine .lookAt (callerOf_looks _) fun s asked => ?_
  have client : s.client = r.client := by
    obtain ⟨t, still, remains, _⟩ := (building.related built).resources id r loads.there
    have same := (resource_gives asked).1
    rw [still] at same
    cases same
    exact remains.client
  rw [client]
  refine (call_issues r.client request.method sent mid).andThen fun response last _ => ?_
  exact (issues_of_quiet (search_keeps quiet_storing _ _) last).andThen fun v final _ =>
    setData_issues trivial v

/-- A load that begins no other makes one call. -/
theorem issues_of_alone (loads : g.Loads id r request path) (alone : g.LoadsAlone id params) :
    Issues r.client id True [.single request.method] (load id params) g := by
  have quiet : ∀ x, Keeps Quiet (cachedOr (misuse .endless) x) := fun x =>
    cachedOr_keeps quiet_lasting (.throw quiet_lasting _) x
  obtain ⟨succeeds, fails⟩ := loadBy_issues quiet loads params
  have same := alone fun _ => misuse .endless
  exact ⟨fun a h ran => succeeds a h (same.trans ran), fun f h ran => fails f h (same.trans ran)⟩

private theorem data_issues (loads : g.Loads id r request path)
    (plain : request.ReadsNoData ∨ (g.held id).isSome = true) :
    Issues r.client id False (if (g.held id).isSome then [] else [.single request.method])
      (data id) g := by
  cases held : g.held id with
  | some v =>
    have ran := runIn_data_held held
    refine ⟨fun a h gave => ?_, fun f h gave => ?_⟩ <;> rw [ran] at gave <;> cases gave
    exact (quiet_lasting.refl g).traffic
  | none =>
    rw [held] at plain
    have ready : g.Ready r.client id := by
      refine ⟨⟨r, loads.there, rfl⟩, fun s other found again => ?_⟩
      cases loads.there.symm.trans again.there
      cases loads.work.symm.trans again.work
      exact plain.resolve_right nofun
    have demanded : Need.demands (g.reading id) [.data] = [.single request.method] := by
      simp [Need.demands, Graph.reading, held, loadCall_of_loads loads]
    have taken := (data_takes ready).toIssues
    rw [demanded] at taken
    exact taken

end Act

namespace Graph

variable {g : Graph} {id : ResourceId} {r : Resource} {request : Request} {path : String}

/-- Where the request reads no data, or data that is there, loads of the resource end. -/
theorem loads_end (loads : g.Loads id r request path)
    (plain : request.ReadsNoData ∨ (g.held id).isSome = true) :
    g.LoadsEnd id r.client request.method := by
  have alone : ∀ params, g.LoadsAlone id params := fun params => by
    rcases plain with plain | held
    · exact Act.alone_of_plain loads plain params
    · obtain ⟨v, held⟩ := Option.isSome_iff_exists.mp held
      exact Act.alone_of_held held params
  refine ⟨alone, fun name member unnamed named => ?_, Act.data_issues loads plain⟩
  have called : Act.Issues r.client id True [.single request.method] (Act.callLoad id unnamed named) g :=
    Act.callLoad_issues_of_load (fun params => Act.issues_of_alone loads (alone params)) unnamed named
  have found : runIn (Act.readAttribute id name) g = (.ok .load, g) := by
    have resourced : runIn (Act.resource id) g = (.ok r, g) := Act.resource_runs loads.there
    rcases List.mem_pair.mp member with rfl | rfl
    all_goals
      unfold Act.readAttribute
      rw [runIn_bind_ok resourced]
      rfl
  have same : runIn (Act.callNamed id name unnamed named) g =
      runIn (Act.callLoad id unnamed named) g := by
    unfold Act.callNamed
    rw [runIn_bind_ok found]
  exact ⟨fun a h ran => called.succeeds a h (same.symm.trans ran),
    fun f h ran => called.fails f h (same.symm.trans ran)⟩

/-- Where the request reads data that is not there, loads of the resource begin others. -/
theorem loads_reenter (loads : g.Loads id r request path) (reads : ¬ request.ReadsNoData)
    (absent : g.held id = none) : g.LoadsReenter id request := by
  have empty : r.data = none := (held_of_there loads.there).symm.trans absent
  refine ⟨fun depth params => ?_, fun depth => ?_, fun opens depth => ⟨?_, ?_⟩⟩
  · obtain ⟨f, h, failed, stores, _⟩ := Act.nestedLoad_fails depth loads reads empty params
    exact ⟨f, h, failed, stores⟩
  · obtain ⟨f, h, failed, stores, _⟩ := Act.dataWithin_fails depth loads reads empty
    exact ⟨f, h, failed, stores⟩
  · obtain ⟨f, h, failed, _, endless⟩ := Act.nestedLoad_fails depth loads reads empty .null
    rw [endless opens (opens g (stores_lasting.refl g))] at failed
    exact ⟨h, failed⟩
  · obtain ⟨f, h, failed, _, endless⟩ := Act.dataWithin_fails depth loads reads empty
    rw [endless opens] at failed
    exact ⟨h, failed⟩

end Graph

namespace Model

variable {given : Json} {service : String} {factory : Option Nat} {m : Model}

/-- In a compiled model, what loads a resource is a request and a path of its response. -/
theorem load_of_compile (compiled : compile given service factory = .ok m) {type : ResourceType}
    (member : type ∈ (Graph.ofModel m []).types) {o : Operation} (set : type.load = some o) :
    ∃ request path, o.work = .load request path := by
  obtain ⟨d, read, declared, made⟩ := declared_of_compile compiled
  obtain ⟨scope, sound, _⟩ := sound_of_document declared made
  have kind : o.kind = .load := by
    simp only [Graph.ofModel, List.mem_toArray, List.mem_append, List.mem_singleton] at member
    rcases member with listed | rfl
    · obtain ⟨entry, inside, rfl⟩ := List.mem_map.mp listed
      exact ((sound.types entry inside).load o set).2
    · exact (sound.root.load o set).2
  unfold Operation.kind at kind
  split at kind <;> cases kind
  exact ⟨_, _, ‹_›⟩

/-- **Loads come to an end, unless they read what they load.** For every resource of a type with a
load operation, in any graph of a compiled model: where the load request reads no data, or the data
is there, a load begins no other and makes at most one call, and reading the data does too; where
the request reads data that is not there, no load is done and nothing is called. -/
theorem loads_of_compiled (compiled : compile given service factory = .ok m) {g : Graph}
    (types : g.types = (Graph.ofModel m []).types) {id : ResourceId} {r : Resource}
    (there : g.resources[id]? = some r) {type : ResourceType}
    (typed : g.types[r.type.index]? = some type) {o : Operation} (set : type.load = some o) :
    ∃ request path, o.work = .load request path ∧
      (request.ReadsNoData ∨ (g.held id).isSome = true → g.LoadsEnd id r.client request.method) ∧
      (¬ request.ReadsNoData ∧ g.held id = none → g.LoadsReenter id request) := by
  obtain ⟨request, path, work⟩ := load_of_compile compiled (types ▸ Array.mem_of_getElem? typed) set
  have loads : g.Loads id r request path := ⟨there, by rw [typed]; simp [set, work]⟩
  exact ⟨request, path, work, fun plain => Graph.loads_end loads plain,
    fun ⟨reads, absent⟩ => Graph.loads_reenter loads reads absent⟩

/-- Pages that are loaded again with the tag that they have. -/
def taggedPages : Json :=
  .object [("resources", .object [("page", .object [("identifiers", .list [.str "id"]),
    ("load", .object [("request", .object [("operation", .str "Get"),
      ("params", .list [.object [("target", .str "Tag"), ("sourceType", .str "dataMember"),
        ("source", .str "tag")]])]), ("path", .str "@")])])])]

/-- The request that loads a page. -/
def getPage : Request := ⟨"get", [⟨⟨"Tag", .key "Tag"⟩, .dataMember (.str "tag")⟩]⟩

/-- Two pages of a model, of which only the first was loaded. -/
def twoPages (m : Model) : Graph where
  store := { cells := #[.data (.object [("tag", .str "a")])] }
  types := (Graph.ofModel m []).types
  clients := #[.prepared { calls := [("get", [⟨.data (.object [("tag", .str "b")]), none⟩])] }]
  resources := #[
    { type := ⟨0, "page"⟩, identifiers := [("id", .str "home")], client := 0,
      data := some (.shared ⟨0⟩) },
    { type := ⟨0, "page"⟩, identifiers := [("id", .str "news")], client := 0 }]

private theorem compile_taggedPages : ∃ m, compile taggedPages "site" none = .ok m ∧
    (twoPages m).types[0]? =
      some {
        name := "page", identifiers := ["id"], load := some ⟨.load getPage "@", {}⟩,
        isFrozen := true } := by
  have compiled : ((compile taggedPages "site" none).toOption.bind
      fun m => (Graph.ofModel m []).types[0]?) =
      some {
        name := "page", identifiers := ["id"], load := some ⟨.load getPage "@", {}⟩,
        isFrozen := true } := by
    decide +kernel
  cases made : compile taggedPages "site" none with
  | error fault => simp [made, Except.toOption] at compiled
  | ok m =>
    rw [made] at compiled
    exact ⟨m, rfl, compiled⟩

private theorem getPage_reads : ¬ getPage.ReadsNoData := fun plain =>
  plain ⟨⟨"Tag", .key "Tag"⟩, .dataMember (.str "tag")⟩ List.mem_cons_self rfl

/-- The page that was loaded can be loaded again, and the other one not the first time. -/
theorem loads_of_compiled_taggedPages : ∃ m, compile taggedPages "site" none = .ok m ∧
    (twoPages m).LoadsEnd 0 0 "get" ∧ (twoPages m).LoadsReenter 1 getPage := by
  obtain ⟨m, compiled, typed⟩ := compile_taggedPages
  have home : (twoPages m).resources[0]? = some _ := rfl
  have news : (twoPages m).resources[1]? = some _ := rfl
  obtain ⟨request, path, work, ends, _⟩ := loads_of_compiled compiled
    (g := twoPages m) rfl home typed rfl
  obtain ⟨other, _, same, _, reenters⟩ := loads_of_compiled compiled (g := twoPages m) rfl news typed rfl
  cases work
  cases same
  exact ⟨m, compiled, ends (.inr rfl), reenters ⟨getPage_reads, rfl⟩⟩

/-- A page that was not loaded never is, and its data is never read: however many loads may lie
inside each other, one more is begun. -/
theorem taggedPages_endless : ∃ m, compile taggedPages "site" none = .ok m ∧ ∀ depth,
    (∃ h, runIn (Act.loadBy (Act.dataWithin depth) 1 .null)
      (twoPages m) = (.error (.misuse .endless), h)) ∧
      ∃ h, runIn (Act.dataWithin depth 1) (twoPages m) = (.error (.misuse .endless), h) := by
  obtain ⟨m, compiled, typed⟩ := compile_taggedPages
  have loads : (twoPages m).Loads 1 ⟨⟨0, "page"⟩, [("id", .str "news")], 0, none, []⟩ getPage "@" :=
    ⟨rfl, by rw [typed]; rfl⟩
  exact ⟨m, compiled, (Graph.loads_reenter loads getPage_reads rfl).endless fun h _ => ⟨[], h, rfl⟩⟩

end Model

end ResourceGraph
