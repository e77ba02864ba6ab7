import ResourceGraph.Proofs.Blame
import ResourceGraph.Graph.Access

/-!
Safe graphs: those whose types read declared identifiers only, whose resources have the identifiers
of their types, and whose clients and stored expressions have paths that can be read. Nothing that
is done to a safe graph blames the rules but a projection whose path cannot be read, and the graph
stays safe. Which failures such a projection may give is left open here as `E`.
-/

namespace ResourceGraph

open ResourceGraph.Graph Store

/-- The request of an owner with declared identifiers reads no others, and is excused where the path
of a projection cannot be read. -/
structure Request.Safe (E : Failure → Prop) (declared : List String) (r : Request) : Prop where
  reads : r.ReadsDeclared declared
  paths : ∀ p ∈ r.params, ∀ f, p.Unreadable f → E f

/-- The builder of an owner with declared identifiers reads no others, and its paths can be read. -/
structure Builder.Safe (declared : List String) (b : Builder) : Prop where
  reads : b.ReadsDeclared declared
  paths : b.PathsReadable

/-- An operation of an owner with declared identifiers. -/
structure Operation.Safe (E : Failure → Prop) (declared : List String) (o : Operation) : Prop where
  request : ∀ r, o.request? = some r → r.Safe E declared
  builder : ∀ b, o.builder? = some b → b.Safe declared
  reference : o.kind = .reference → ∀ b, o.builder? = some b → b.readsResponse = false
  path : ∀ p, o.path? = some p → p = Path.whole ∨ Path.Readable p

/-- Everything attached to the type is safe for it. -/
structure ResourceType.Safe (E : Failure → Prop) (t : ResourceType) : Prop where
  operations : ∀ entry ∈ t.operations, entry.2.Safe E t.identifiers
  load : ∀ o, t.load = some o → o.Safe E t.identifiers

/-- Where a page of the route has the token of the next one can be read. -/
def Route.Proper (r : Route) : Prop :=
  ∀ pagination, r.pagination = some pagination →
    pagination.outputToken = Path.whole ∨ Path.Readable pagination.outputToken

/-- The client blames no rules of its own: where a route is paginated, its tokens can be found. -/
def Client.Proper : Client → Prop
  | .http c => ∀ entry ∈ c.routes, entry.2.Proper
  | .prepared _ | .standIn _ => True

/-- The caller is a resource with identifiers of these names. -/
def Graph.Knows (g : Graph) (caller : Option ResourceId) (declared : List String) : Prop :=
  ∃ id r, caller = some id ∧ g.resources[id]? = some r ∧ Keyed.keys r.identifiers = declared

/-- If the next page depends on the one before it, its token can be found. -/
def Paging.Proper (p : Paging) : Prop := ∀ route page, p.pages = .after route page → route.Proper

/-- Pages are turned into elements safely, for a caller of the graph. -/
def Harvest.Safe (g : Graph) (caller : Option ResourceId) : Harvest → Prop
  | .values path => path = Path.whole ∨ Path.Readable path
  | .resources b => ∃ declared, g.Knows caller declared ∧ b.Safe declared
  | .responses => True

/-- The enumeration was begun by a resource of the graph with a safe request, and its pages are
turned into elements safely. -/
structure Enumeration.Safe (E : Failure → Prop) (g : Graph) (e : Enumeration) : Prop where
  request : ∀ request, e.progress = .untouched request →
    ∃ declared, g.Knows e.context.caller declared ∧ request.Safe E declared
  harvest : e.harvest.Safe g e.context.caller
  paging : ∀ paging ready, e.progress = .under paging ready → paging.Proper

/-- A safe graph. -/
structure Graph.Safe (E : Failure → Prop) (g : Graph) : Prop where
  types : ∀ (i : Nat) t, g.types[i]? = some t → t.Safe E
  resources : ∀ (id : ResourceId) r, g.resources[id]? = some r → r.Fits g.types
  clients : ∀ (id : ClientId) c, g.clients[id]? = some c → c.Proper
  expressions : g.store.WellRead
  enumerations : ∀ (id : EnumerationId) e, g.enumerations[id]? = some e → e.Safe E g

/-- A safe graph in which the caller has identifiers of these names. -/
def Graph.SafeFor (E : Failure → Prop) (caller : Option ResourceId) (declared : List String)
    (g : Graph) : Prop := g.Safe E ∧ g.Knows caller declared

theorem Client.Proper.goesOn {c d : Client} (proper : c.Proper) (on : c.GoesOn d) : d.Proper := by
  cases c <;> cases d <;> try trivial
  obtain ⟨same, _⟩ := on
  rw [same]
  exact proper

theorem Builder.dataSource_kind {b : Builder} {s : IdentifierSource}
    (data : s ∈ b.dataSource?.toList) : s.kind ≠ .identifier := by
  unfold Builder.dataSource? at data
  split at data
  · split at data
    · cases data
    · rw [List.mem_singleton.mp data]
      exact nofun
  · cases data

namespace Graph

variable {E : Failure → Prop} {kind : Exchange → Prop} {g h : Graph} {caller : Option ResourceId}
  {declared : List String}

theorem Knows.of_change (knows : g.Knows caller declared) (change : Change kind g h) :
    h.Knows caller declared := by
  obtain ⟨id, r, given, there, keys⟩ := knows
  obtain ⟨s, still, remains⟩ := change.resources id r there
  refine ⟨id, s, given, still, ?_⟩
  rw [remains.identifiers]
  exact keys

end Graph

theorem Harvest.Safe.of_change {kind : Exchange → Prop} {g h : Graph} {caller : Option ResourceId}
    {harvest : Harvest} (safe : harvest.Safe g caller) (change : Change kind g h) :
    harvest.Safe h caller := by
  cases harvest with
  | values path => exact safe
  | responses => trivial
  | resources b =>
    obtain ⟨declared, knows, fine⟩ := safe
    exact ⟨declared, knows.of_change change, fine⟩

/-- Whether an enumeration is safe is a matter of the resources alone. -/
theorem Enumeration.Safe.of_resources {E : Failure → Prop} {g h : Graph} {e : Enumeration}
    (safe : e.Safe E g) (same : h.resources = g.resources) : e.Safe E h := by
  have known : ∀ {caller declared}, g.Knows caller declared → h.Knows caller declared := by
    intro caller declared knows
    unfold Graph.Knows
    rw [same]
    exact knows
  refine ⟨fun request untouched => ?_, ?_, safe.paging⟩
  · obtain ⟨declared, knows, fine⟩ := safe.request request untouched
    exact ⟨declared, known knows, fine⟩
  · have harvest := safe.harvest
    cases form : e.harvest with
    | values path =>
      rw [form] at harvest
      exact harvest
    | resources b =>
      rw [form] at harvest
      obtain ⟨declared, knows, fine⟩ := harvest
      exact ⟨declared, known knows, fine⟩
    | responses => trivial

namespace Graph

variable {E : Failure → Prop} {kind : Exchange → Prop} {g h : Graph} {caller : Option ResourceId}
  {declared : List String}

/-- A safe graph stays safe when it is changed. -/
theorem Safe.of_change (safe : g.Safe E) (change : Change kind g h) : h.Safe E := by
  refine ⟨?_, ?_, ?_, ?_, ?_⟩
  · intro i t found
    rw [change.types] at found
    exact safe.types i t found
  · intro id s there
    rw [change.types]
    by_cases early : id < g.resources.size
    · obtain ⟨u, last, remains⟩ := change.resources id _ (Array.getElem?_eq_getElem early)
      rw [there] at last
      cases last
      intro type found
      rw [remains.type] at found
      rw [remains.identifiers]
      exact safe.resources id _ (Array.getElem?_eq_getElem early) type found
    · exact change.added id s there (Nat.le_of_not_lt early)
  · intro id d there
    by_cases early : id < g.clients.size
    · obtain ⟨e, last, on⟩ := change.clients id _ (Array.getElem?_eq_getElem early)
      rw [there] at last
      cases last
      exact (safe.clients id _ (Array.getElem?_eq_getElem early)).goesOn on
    · obtain ⟨v, rfl⟩ := change.connected id d there (Nat.le_of_not_lt early)
      trivial
  · exact safe.expressions.learns change.store
  · intro id e there
    rw [change.enumerations] at there
    have before := safe.enumerations id e there
    refine ⟨fun request untouched => ?_, before.harvest.of_change change, before.paging⟩
    obtain ⟨declared, knows, fine⟩ := before.request request untouched
    exact ⟨declared, knows.of_change change, fine⟩

theorem SafeFor.of_change (safe : g.SafeFor E caller declared) (change : Change kind g h) :
    h.SafeFor E caller declared := ⟨safe.1.of_change change, safe.2.of_change change⟩

end Graph

namespace Act

variable {α β : Type} {E : Failure → Prop} {g h : Graph}
  {caller : Option ResourceId} {declared : List String}

/-- Where the graph is safe for the caller, the action fails only in ways that are excused. -/
abbrev Blameless (E : Failure → Prop) (caller : Option ResourceId) (declared : List String)
    (x : Act α) : Prop := Fails (SafeFor E caller declared) E x

theorem Blameless.seq {x : Act α} {f : α → Act β} (keeps : Keeps (Change anyCall) x)
    (first : Blameless E caller declared x) (rest : ∀ a, Blameless E caller declared (f a)) :
    Blameless E caller declared (x >>= f) :=
  .bind first (fun g safe => safe.of_change (keeps g)) rest

/-! ## Requests and data -/

private theorem project_blameless (excuses : Excuses E) {read : ResourceId → Act Datum}
    (reads : ∀ id, Blameless E caller declared (read id)) {p : Projection}
    (known : ∀ name, p.source = .identifier name → ∃ i ∈ declared, name = .str i)
    (paths : ∀ f, p.Unreadable f → E f) : Blameless E caller declared (project read caller p) := by
  intro g f h safe ran
  obtain ⟨id, r, rfl, there, keys⟩ := safe.2
  unfold project at ran
  cases source : p.source with
  | text s | integer n | flag b =>
    rw [source] at ran
    cases ran
  | identifier name =>
    obtain ⟨i, member, rfl⟩ := known name source
    rw [source] at ran
    rcases bind_fails.mp ran with absent | ⟨s, mid, gave, missing⟩
    · rw [runIn_resource, there] at absent
      cases absent
    · obtain ⟨found, rfl⟩ := resource_gives gave
      rw [there] at found
      cases found
      split at missing
      · cases missing
      · next none =>
        rw [← keys] at member
        exact absurd member (Keyed.get?_eq_none_iff.mp none)
  | dataMember path =>
    rw [source] at ran
    rcases bind_fails.mp ran with unread | ⟨v, mid, _, unfound⟩
    · exact reads id g f h safe unread
    · by_cases blames : f.BlamesRules
      · rcases bind_fails.mp unfound with noText | ⟨text, last, gave, failed⟩
        · rw [runIn_liftResult, Prod.mk.injEq] at noText
          exact paths f ⟨path, source, .inl noText.1⟩
        · rw [runIn_liftResult, Prod.mk.injEq] at gave
          exact paths f (unreadable_of_search source gave.1 failed blames)
      · exact excuses f blames

private theorem apply_blameless (excuses : Excuses E) {read : ResourceId → Act Datum}
    (keeps : ∀ id, Keeps (Change anyCall) (read id))
    (reads : ∀ id, Blameless E caller declared (read id)) {p : Projection}
    (known : ∀ name, p.source = .identifier name → ∃ i ∈ declared, name = .str i)
    (paths : ∀ f, p.Unreadable f → E f) (params : Keyed Datum) :
    Blameless E caller declared (apply read caller params p) := by
  refine .seq (project_keeps storing_change keeps caller p)
    (project_blameless excuses reads known paths) fun value => ?_
  refine (Harmless.seq (harmless_onStore _) fun edited => ?_).fails excuses
  split
  · exact .pure _
  · exact .throw not_false

theorem copyParams_harmless {given : Json} {f : Failure} (failed : copyParams given = .error f) :
    ¬ f.BlamesUse := by
  unfold copyParams at failed
  split at failed
  · cases failed
  · split at failed
    · cases failed
      exact entriesFailure_harmless _
    · cases failed

theorem buildParams_blameless (excuses : Excuses E) {read : ResourceId → Act Datum}
    (keeps : ∀ id, Keeps (Change anyCall) (read id)) {context : Context}
    (reads : ∀ id, Blameless E context.caller declared (read id)) {request : Request}
    (safe : request.Safe E declared) :
    Blameless E context.caller declared (buildParams read request context) := by
  refine .seq ((lift_looks _).keeps change_lasting) ?_ fun start => ?_
  · exact (harmless_lift fun f => copyParams_harmless).fails excuses
  · refine .seq (.foldlM change_lasting _ (fun params p _ =>
      apply_keeps storing_change keeps context.caller params p) _) ?_ fun built => ?_
    · refine .foldlM (fun params p _ g holds => ?_) (fun params p member => ?_) _
      · exact holds.of_change (apply_keeps storing_change keeps context.caller params p g)
      · exact apply_blameless excuses keeps reads (safe.reads p member) (safe.paths p member) params
    · split
      · exact (harmless_onStore _).fails excuses
      · exact (harmless_onStore _).fails excuses

theorem sendRequest_blameless (excuses : Excuses E) {read : ResourceId → Act Datum}
    (keeps : ∀ id, Keeps (Change anyCall) (read id)) {context : Context}
    (reads : ∀ id, Blameless E context.caller declared (read id)) {request : Request}
    (safe : request.Safe E declared) :
    Blameless E context.caller declared (sendRequest read request context) := by
  refine .seq (buildParams_keeps storing_change keeps _ _)
    (buildParams_blameless excuses keeps reads safe) fun params => ?_
  exact (Harmless.seq (harmless_callerOf _) fun caller => harmless_call _ _ _).fails excuses

theorem harmless_cachedOr {otherwise : Act Datum} (harmless : Harmless otherwise) (id : ResourceId) :
    Harmless (cachedOr otherwise id) := by
  refine .seq (harmless_resource id) fun r => ?_
  split
  · exact .pure _
  · exact harmless

theorem runLoad_blameless (excuses : Excuses E) {read : ResourceId → Act Datum}
    (keeps : ∀ id, Keeps (Change anyCall) (read id)) (context : Context)
    (reads : ∀ id, Blameless E context.caller declared (read id)) {request : Request} {path : String}
    (safe : request.Safe E declared) (readable : path = Path.whole ∨ Path.Readable path) :
    Blameless E context.caller declared (runLoad read request path context) := by
  refine .seq (sendRequest_keeps (fun _ _ => trivial) calling_change keeps _ _)
    (sendRequest_blameless excuses keeps reads safe) fun response => ?_
  refine (Harmless.seq (harmless_search readable _) fun data => ?_).fails excuses
  split
  · intro g f h _ ran
    cases ran
  · exact .throw not_false

section Loading

variable {read : ResourceId → Act Datum} (excuses : Excuses E)
    (keeps : ∀ id, Keeps (Change anyCall) (read id))
  (reads : ∀ id, Fails (Safe E) E (read id))

include excuses keeps reads

/-- Loading any resource of a safe graph, where reading data blames no rules either. -/
theorem loadBy_blameless (id : ResourceId) (params : Json) :
    Fails (Safe E) E (loadBy read id params) := by
  intro g f h safe ran
  by_cases blames : f.BlamesRules
  · rcases bind_fails.mp ran with absent | ⟨r, mid, gave, loading⟩
    · exact absurd blames.blamesUse (harmless_resource id g f h trivial absent)
    · obtain ⟨there, rfl⟩ := resource_gives gave
      rw [runIn_bind, runIn_typeOf] at loading
      dsimp only at loading
      split at loading
      · next request path work =>
        obtain ⟨o, set, work⟩ := Option.map_eq_some_iff.mp work
        cases found : mid.types[r.type.index]? with
        | none =>
          rw [found] at set
          cases set
        | some type =>
          rw [found] at set
          have fine := (safe.types _ type found).load o set
          refine runLoad_blameless excuses keeps { caller := some id, params }
            (fun id => (reads id).weaken fun _ safe => safe.1) (fine.request request ?_)
            (fine.path path ?_)
            mid f h ⟨safe, id, r, rfl, there, safe.resources id r there type found⟩ loading
          · simp [Operation.request?, work]
          · simp [Operation.path?, work]
      · cases loading
        exact blames.elim
  · exact excuses f blames

private theorem loadedBy_blameless (id : ResourceId) : Fails (Safe E) E (loadedBy read id) := by
  intro g f h safe ran
  by_cases blames : f.BlamesRules
  · unfold loadedBy at ran
    rw [runIn_tryCatch] at ran
    split at ran
    · cases ran
    · next failure mid failed =>
      split at ran
      · rcases bind_fails.mp ran with absent | ⟨r, last, _, missing⟩
        · exact absurd blames.blamesUse (harmless_resource id _ f h trivial absent)
        · cases missing
          exact blames.elim
      · cases ran
        rcases bind_fails.mp failed with failed | ⟨_, last, _, absent⟩
        · exact loadBy_blameless excuses keeps reads id .null g f _ safe failed
        · exact absurd blames.blamesUse (harmless_cachedOr (.pure _) id _ f _ trivial absent)
  · exact excuses f blames

end Loading

private theorem cachedOr_blameless (excuses : Excuses E) {otherwise : Act Datum}
    (fails : Fails (Safe E) E otherwise)
    (id : ResourceId) : Fails (Safe E) E (cachedOr otherwise id) := by
  refine .bind ((harmless_resource id).fails excuses) (fun g safe => ?_) fun r => ?_
  · exact resource_looks id g ▸ safe
  · split
    · exact .pure _
    · exact fails

/-- Reading the data of any resource of a safe graph, however many loads may lie inside each other. -/
theorem dataWithin_blameless (excuses : Excuses E) (depth : Nat) (id : ResourceId) :
    Fails (Safe E) E (dataWithin depth id) := by
  induction depth generalizing id with
  | zero =>
    refine cachedOr_blameless excuses (Harmless.fails excuses ?_) id
    exact harmless_fail not_false
  | succ depth ih =>
    have keeps : ∀ id, Keeps (Change anyCall) (dataWithin depth id) :=
      dataWithin_building (fun _ _ => trivial) building_change depth
    exact cachedOr_blameless excuses (loadedBy_blameless excuses keeps ih id) id

/-- Loading any resource of a safe graph. -/
theorem load_blameless (excuses : Excuses E) (id : ResourceId) (params : Json) :
    Fails (Safe E) E (load id params) :=
  loadBy_blameless excuses (dataWithin_building (fun _ _ => trivial) building_change nestedLoads)
    (dataWithin_blameless excuses nestedLoads) id params

/-- Reading the data of any resource of a safe graph. -/
theorem data_blameless (excuses : Excuses E) (id : ResourceId) : Fails (Safe E) E (data id) :=
  dataWithin_blameless excuses (nestedLoads + 1) id

theorem data_declared (excuses : Excuses E) (id : ResourceId) :
    Blameless E caller declared (data id) :=
  (data_blameless excuses id).weaken fun _ fine => fine.1

/-! ## Building -/

/-- A source that reads an identifier of the caller finds it. -/
theorem identifier_blameless {context : Context} {b : Builder} (safe : b.Safe declared)
    {s : IdentifierSource} (member : s ∈ b.allSources) (kind : s.kind = .identifier) :
    Blameless E context.caller declared (extract context s) := by
  intro g f h fine ran
  obtain ⟨id, r, given, there, keys⟩ := fine.2
  have called : runIn (callerOf context) g = (.ok r, g) := callerOf_runs given there
  have declaredSource : s.source ∈ declared := by
    refine safe.reads s ?_ kind
    rcases List.mem_append.mp member with own | data
    · exact own
    · exact absurd kind (Builder.dataSource_kind data)
  unfold extract at ran
  rw [kind] at ran
  dsimp only at ran
  rw [runIn_bind_ok called] at ran
  split at ran
  · cases ran
  · next none =>
    rw [← keys] at declaredSource
    exact absurd declaredSource (Keyed.get?_eq_none_iff.mp none)

theorem harmless_sentParameter (response : Response) (name : String) :
    Harmless (sentParameter response name) := by
  refine .seq (harmless_opened _) fun params => ?_
  split
  · exact .pure _
  · exact .throw not_false

/-- A source of a safe builder, where a response is there for it if it needs one. -/
theorem extract_blameless (excuses : Excuses E) {context : Context} {b : Builder}
    (safe : b.Safe declared) (response : b.readsResponse = true → context.response.isSome)
    {s : IdentifierSource} (member : s ∈ b.allSources) :
    Blameless E context.caller declared (extract context s) := by
  have answered : s.kind.readsResponse = true → context.response.isSome := fun reads =>
    response (List.any_eq_true.mpr ⟨s, member, reads⟩)
  have readable : s.kind.isPath = true → Path.Readable s.source := safe.paths s member
  cases kind : s.kind with
  | argument =>
    unfold extract
    rw [kind]
    dsimp only
    split
    · exact .throw (excuses _ not_false)
    · exact .pure _
  | identifier => exact identifier_blameless safe member kind
  | dataMember =>
    unfold extract
    rw [kind]
    dsimp only
    split
    · next id _ =>
      refine .seq (data_keeps id) (data_declared excuses id) fun v => ?_
      exact (harmless_search (.inr (readable (by rw [kind]; rfl))) v).fails excuses
    · exact Harmless.fails excuses (harmless_fail not_false)
  | requestParameter =>
    obtain ⟨page, there⟩ := Option.isSome_iff_exists.mp (answered (by rw [kind]; rfl))
    unfold extract
    rw [kind, there]
    exact (harmless_sentParameter page _).fails excuses
  | responsePath =>
    obtain ⟨page, there⟩ := Option.isSome_iff_exists.mp (answered (by rw [kind]; rfl))
    unfold extract
    rw [kind, there]
    exact (harmless_search (.inr (readable (by rw [kind]; rfl))) page.data).fails excuses

private theorem extractAll_blameless (excuses : Excuses E) {context : Context} {b : Builder}
    (safe : b.Safe declared) (response : b.readsResponse = true → context.response.isSome) :
    Blameless E context.caller declared (extractAll b context) := by
  have single : ∀ x : Exchange, x.Single → anyCall x := fun _ _ => trivial
  refine .foldlM (fun values s member g fine => ?_) (fun values s member => ?_) _
  · refine fine.of_change (?_ : Change anyCall g _)
    exact Keeps.bind change_lasting (extract_change single context s)
      (fun _ => .pure change_lasting _) g
  · exact Blameless.seq (extract_change single context s)
      (extract_blameless excuses safe response member) fun _ => .pure _

private theorem harmless_buildOne (b : Builder) (context : Context) (values : Keyed Datum) :
    Harmless (buildOne b context values) := by
  refine .seq (harmless_callerOf _) fun caller => ?_
  refine .seq (harmless_construct _ _ _ _ _) fun id => ?_
  split
  · refine .seq (fun g f h _ ran => ?_) fun _ => .pure _
    cases ran
  · exact .seq (.pure ()) fun _ => .pure _

/-- Building resources with a safe builder. -/
theorem build_blameless (excuses : Excuses E) (context : Context) {b : Builder}
    (safe : b.Safe declared) (response : b.readsResponse = true → context.response.isSome) :
    Blameless E context.caller declared (build b context) := by
  refine .seq (extractAll_change (fun _ _ => trivial) b context)
    (extractAll_blameless excuses safe response) fun values => ?_
  refine Harmless.fails excuses ?_
  split
  · refine .seq .get fun g => ?_
    refine .seq (.mapM (fun _ _ _ _ => trivial) fun row _ => harmless_buildOne b context row)
      fun ids => ?_
    refine .seq (fun g f h _ ran => ?_) fun _ => .pure _
    cases ran
  · exact .seq (harmless_buildOne b context values) fun _ => .pure _

end Act

end ResourceGraph
