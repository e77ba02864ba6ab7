import ResourceGraph.Proofs.DataLaw

/-!
Loads that lie inside each other. A load whose request reads data that is not there begins a load of
the same resource, which comes to the same place with the same data missing; so each load inside
begins another one until no more may. Such a load never succeeds and never calls anything, and it is
endless however many loads may lie inside each other, as long as what is written before the data is
read can be written. A load that reads no data, or data that is there, begins no other.
-/

namespace ResourceGraph

open ResourceGraph.Graph Store

/-- The projections before the first one that reads data. -/
def Request.opening (r : Request) : List Projection :=
  r.params.takeWhile fun p => p.source.kind ≠ .dataMember

/-- The parameters as they are when data is read the first time. -/
def Act.openParams (request : Request) (context : Context) : Act (Keyed Datum) := do
  let (start, _) ← lift (copyParams context.params)
  request.opening.foldlM (apply (fun _ => misuse .noCaller) context.caller) start

/-- Only the store was changed. -/
def Graph.Stores (g h : Graph) : Prop := ∃ s, g.store.Learns s ∧ h = { g with store := s }

/-- What the request writes before it reads data can be written, as long as only the store changes. -/
def Request.AlwaysOpens (request : Request) (id : ResourceId) (g : Graph) : Prop :=
  ∀ h, g.Stores h → ∃ start mid, runIn (Act.openParams request { caller := some id }) h =
    (.ok start, mid)

namespace Graph

variable {g h : Graph} {id : ResourceId} {r : Resource} {request : Request} {path : String}

theorem stores_lasting : Lasting Stores where
  refl g := ⟨g.store, learns_lasting.refl _, rfl⟩
  trans := by
    rintro g _ _ ⟨s, first, rfl⟩ ⟨t, second, rfl⟩
    exact ⟨t, learns_lasting.trans first second, rfl⟩

theorem storing_stores : Act.Storing Stores := ⟨stores_lasting, fun _ s learns => ⟨s, learns, rfl⟩⟩

theorem Loads.of_stores (loads : g.Loads id r request path) (stores : g.Stores h) :
    h.Loads id r request path := by
  obtain ⟨s, _, rfl⟩ := stores
  exact ⟨loads.there, loads.work⟩

end Graph

theorem Request.AlwaysOpens.of_stores {request : Request} {id : ResourceId} {g h : Graph}
    (opens : request.AlwaysOpens id g) (stores : g.Stores h) : request.AlwaysOpens id h :=
  fun mid further => opens mid (stores_lasting.trans stores further)

namespace Act

variable {g h : Graph} {id : ResourceId} {r : Resource} {request : Request} {path : String}
  {read : ResourceId → Act Datum} {params : Json} {f : Failure}

/-! ## Reading in the midst of building -/

private theorem openParams_stores (request : Request) (context : Context) :
    Keeps Stores (openParams request context) := by
  refine .bind stores_lasting ((lift_looks _).keeps stores_lasting) fun start => ?_
  refine .foldlM stores_lasting _ (fun params p _ => ?_) _
  exact apply_keeps storing_stores (fun _ => .throw stores_lasting _) _ _ _

/-- A request that reads data has a first projection that does. -/
theorem split_of_reads (reads : ¬ request.ReadsNoData) :
    ∃ target given rest, request.params = request.opening ++ ⟨target, .dataMember given⟩ :: rest := by
  have parts := List.takeWhile_append_dropWhile (p := fun p : Projection => p.source.kind ≠ .dataMember)
    (l := request.params)
  cases left : request.params.dropWhile fun p : Projection => p.source.kind ≠ .dataMember with
  | nil =>
    rw [List.dropWhile_eq_nil_iff] at left
    exact absurd (fun p member => by simpa using left p member) reads
  | cons p rest =>
    have some : request.params.dropWhile (fun p : Projection => p.source.kind ≠ .dataMember) ≠ [] := by
      rw [left]
      exact List.cons_ne_nil _ _
    have head := List.head_dropWhile_not _ some
    rw [left] at parts
    simp only [left, List.head_cons] at head
    obtain ⟨target, source⟩ := p
    cases source with
    | dataMember given => exact ⟨target, given, rest, parts.symm⟩
    | _ => simp [ProjectionSource.kind] at head

/-- Projections that read no data are written the same, however data is read. -/
theorem runIn_opening (read : ResourceId → Act Datum) (request : Request) (caller : Option ResourceId)
    (start : Keyed Datum) :
    request.opening.foldlM (apply read caller) start =
      request.opening.foldlM (apply (fun _ => misuse .noCaller) caller) start :=
  foldlM_apply_eq (fun p member => by simpa using List.mem_takeWhile_imp member) read _ caller start

/-- Where what comes before the data cannot be written, or the data not be read after it, the
parameters cannot be built. -/
theorem buildParams_fails (reads : ¬ request.ReadsNoData)
    (failed : runIn (openParams request { caller := some id, params } >>= fun _ => read id) g =
      (.error f, h)) :
    runIn (buildParams read request { caller := some id, params }) g = (.error f, h) := by
  obtain ⟨target, given, rest, split⟩ := split_of_reads reads
  unfold openParams at failed
  unfold buildParams
  rw [runIn_bind, runIn_bind, runIn_liftResult] at failed
  rw [runIn_bind, runIn_liftResult]
  cases copied : copyParams params with
  | error fault =>
    rw [copied] at failed
    exact failed
  | ok pair =>
    obtain ⟨start, others⟩ := pair
    rw [copied] at failed
    dsimp only at failed ⊢
    refine runIn_bind_error ?_
    rw [split, List.foldlM_append, runIn_opening, runIn_bind]
    rcases opened : runIn (request.opening.foldlM
        (apply (fun _ => misuse .noCaller) (some id)) start) g with ⟨fault | begun, mid⟩
    · rw [opened] at failed
      cases failed
      rfl
    · rw [opened] at failed
      dsimp only at failed ⊢
      rw [List.foldlM_cons]
      unfold apply project
      exact runIn_bind_error (runIn_bind_error (runIn_bind_error failed))

private theorem loadBy_fails (loads : g.Loads id r request path) (reads : ¬ request.ReadsNoData)
    (failed : runIn (openParams request { caller := some id, params } >>= fun _ => read id) g =
      (.error f, h)) :
    runIn (loadBy read id params) g = (.error f, h) := by
  have resourced : runIn (resource id) g = (.ok r, g) := resource_runs loads.there
  unfold loadBy
  rw [runIn_bind_ok resourced, runIn_bind_ok (runIn_typeOf _ _), typeOf_of_loads loads]
  exact runIn_bind_error (runIn_bind_error (buildParams_fails reads failed))

private theorem loadedBy_fails (loads : g.Loads id r request path) (reads : ¬ request.ReadsNoData)
    (stores : g.Stores h)
    (failed : runIn (openParams request { caller := some id } >>= fun _ => read id) g = (.error f, h)) :
    runIn (loadedBy read id) g = (.error (f.whenRead r.type.name), h) := by
  have resourced : runIn (resource id) h = (.ok r, h) := resource_runs (loads.of_stores stores).there
  unfold loadedBy
  rw [runIn_tryCatch, runIn_bind_error (loadBy_fails loads reads failed)]
  unfold Failure.whenRead
  dsimp only
  split
  · rw [runIn_bind_ok resourced]
    rfl
  · rfl

/-! ## Loads inside loads -/

/-- What comes before the data cannot be written, or reading the data fails; only the store is
changed. -/
theorem opened_fails (context : Context) (opens : Prop)
    (reading : ∀ mid, g.Stores mid → ∃ f h, runIn (read id) mid = (.error f, h) ∧ mid.Stores h ∧
      (opens → f = .misuse .endless))
    (opening : opens → ∃ start mid, runIn (openParams request context) g = (.ok start, mid)) :
    ∃ f h, runIn (openParams request context >>= fun _ => read id) g = (.error f, h) ∧ g.Stores h ∧
      (opens → f = .misuse .endless) := by
  have kept := openParams_stores request context g
  rcases opened : runIn (openParams request context) g with ⟨fault | start, mid⟩
  · rw [opened] at kept opening
    refine ⟨fault, mid, runIn_bind_error opened, kept, fun opens => ?_⟩
    obtain ⟨start, last, ran⟩ := opening opens
    cases ran
  · rw [opened] at kept
    obtain ⟨f, h, failed, stores, endless⟩ := reading mid kept
    exact ⟨f, h, (runIn_bind_ok opened).trans failed, stores_lasting.trans kept stores, endless⟩

/-- Data that is read to be loaded is not loaded, however many loads may lie inside each other. -/
theorem dataWithin_fails (depth : Nat) (loads : g.Loads id r request path)
    (reads : ¬ request.ReadsNoData) (absent : r.data = none) :
    ∃ f h, runIn (dataWithin depth id) g = (.error f, h) ∧ g.Stores h ∧
      (request.AlwaysOpens id g → f = .misuse .endless) := by
  induction depth generalizing g with
  | zero =>
    refine ⟨.misuse .endless, g, ?_, stores_lasting.refl g, fun _ => rfl⟩
    unfold dataWithin
    rw [runIn_cachedOr loads.there, absent]
    rfl
  | succ depth ih =>
    obtain ⟨f, h, failed, stores, endless⟩ :=
      opened_fails { caller := some id } (request.AlwaysOpens id g)
      (fun mid stores => by
        obtain ⟨f, h, failed, further, endless⟩ := ih (loads.of_stores stores)
        exact ⟨f, h, failed, further, fun opens => endless (opens.of_stores stores)⟩)
      fun opens => opens g (stores_lasting.refl g)
    refine ⟨f.whenRead r.type.name, h, ?_, stores, fun opens => ?_⟩
    · unfold dataWithin
      rw [runIn_cachedOr loads.there, absent]
      exact loadedBy_fails loads reads stores failed
    · rw [endless opens]
      rfl

/-- A load of absent data whose request reads data fails, and only the store is changed. -/
theorem nestedLoad_fails (depth : Nat) (loads : g.Loads id r request path)
    (reads : ¬ request.ReadsNoData) (absent : r.data = none) (params : Json) :
    ∃ f h, runIn (loadBy (dataWithin depth) id params) g = (.error f, h) ∧ g.Stores h ∧
      (request.AlwaysOpens id g →
        (∃ start mid, runIn (openParams request { caller := some id, params }) g = (.ok start, mid)) →
        f = .misuse .endless) := by
  obtain ⟨f, h, failed, stores, endless⟩ := opened_fails { caller := some id, params }
    (request.AlwaysOpens id g ∧
      ∃ start mid, runIn (openParams request { caller := some id, params }) g = (.ok start, mid))
    (fun mid stores => by
      obtain ⟨f, h, failed, further, endless⟩ :=
        dataWithin_fails depth (loads.of_stores stores) reads absent
      exact ⟨f, h, failed, further, fun opens => endless (opens.1.of_stores stores)⟩)
    And.right
  exact ⟨f, h, loadBy_fails loads reads failed, stores, fun opens begins => endless ⟨opens, begins⟩⟩

/-- A resource that was loaded is of a type with a load operation. -/
theorem loads_of_load (there : g.resources[id]? = some r)
    (ran : runIn (load id params) g = (.ok (), h)) :
    ∃ request path, g.Loads id r request path := by
  have resourced : runIn (resource id) g = (.ok r, g) := resource_runs there
  unfold load loadBy at ran
  rw [runIn_bind_ok resourced, runIn_bind_ok (runIn_typeOf _ _)] at ran
  split at ran
  · next request path work => exact ⟨request, path, loads_of_typeOf there work⟩
  · cases ran

/-- Absent data that was loaded was loaded by a request that reads no data. -/
theorem plain_of_load (loads : g.Loads id r request path) (absent : r.data = none)
    (ran : runIn (load id params) g = (.ok (), h)) : request.ReadsNoData := by
  by_contra reads
  obtain ⟨f, last, failed, _⟩ := nestedLoad_fails nestedLoads loads reads absent params
  unfold load at ran
  rw [failed] at ran
  cases ran

end Act

end ResourceGraph
