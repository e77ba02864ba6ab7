import ResourceGraph.Proofs.Elements
import ResourceGraph.Proofs.Nesting

/-!
Extracting sources one after another. Only to load the data of the caller can write into what is
there, and then only into what its identifiers hold; so a list of the response that lies outside
stays as it is, and every path into it finds the parts that its elements had before. The lists that
were found stay as well.
-/

namespace ResourceGraph

open ResourceGraph.Graph Store

namespace Store

variable {s t : Store} {region wider : Share → Prop} {v : Datum} {content : List Datum}

/-- The datum is a list that lies outside a region. -/
def Shows (s : Store) (region : Share → Prop) (v : Datum) (content : List Datum) : Prop :=
  s.Beyond region v ∧ s.opened v = .list content

theorem Shows.widens (shows : s.Shows region v content) (widens : Widens s region t wider) :
    t.Shows wider v content := by
  obtain ⟨beyond, same⟩ := widens.beyond shows.1
  exact ⟨beyond, same.trans shows.2⟩

end Store

/-- The source is a path into a list of the response. -/
def IdentifierSource.ReadsList (s : IdentifierSource) (list : String) : Prop :=
  s.kind = .responsePath ∧ ∃ part, (∀ member ∈ part, Path.Bare member) ∧
    s.source = Path.ofElements list part

namespace Act

variable {g h : Graph} {id : ResourceId} {r : Resource} {context : Context}
  {region wider : Share → Prop} {v w : Datum}

/-! ## Loading -/

private theorem call_widens (within : g.store.Region region) (client : ClientId) (method : String)
    (params : Datum) :
    Widens g.store region (runIn (call client method params) g).2.store region :=
  .of_grows within (call_keeps (serving_grows anyCall) (fun _ _ => trivial) client method params g)
    (call_keeps (serving_calls : Serving anyCall _) (fun _ _ => trivial) client method params g).store

private theorem search_widens (within : g.store.Region region) (path : String) (v : Datum) :
    Widens g.store region (runIn (search path v) g).2.store region :=
  .of_grows within (Path.search_grows path v g.store) (Path.search_learns path v g.store)

/-- To read the data of the caller loads nothing, or the region holds its identifiers. -/
def Guarded (context : Context) (region : Share → Prop) (g : Graph) : Prop :=
  ∀ id r, context.caller = some id → g.resources[id]? = some r →
    r.data.isSome = true ∨ ∀ entry ∈ r.identifiers, entry.2.Every region

theorem Guarded.mono (guarded : Guarded context region g) (more : ∀ share, region share → wider share)
    (same : h.resources = g.resources) : Guarded context wider h := by
  intro id r caller there
  rw [same] at there
  exact (guarded id r caller there).imp_right fun held entry member => (held entry member).mono more

/-- A load that succeeds widens a region that holds the identifiers of the resource, and sets its
data. The request that loads absent data read none. -/
theorem load_widens (there : g.resources[id]? = some r) (absent : r.data = none)
    (within : g.store.Region region) (held : ∀ entry ∈ r.identifiers, entry.2.Every region)
    {params : Json} (ran : runIn (load id params) g = (.ok (), h)) :
    (∃ wider, Widens g.store region h.store wider) ∧
      ∀ s, h.resources[id]? = some s → s.data.isSome = true := by
  obtain ⟨request, path, loads⟩ := loads_of_load there ran
  have plain := plain_of_load loads absent ran
  have projected : ∀ v ∈ request.projected r, v.Every region := by
    intro v member
    obtain ⟨p, _, found⟩ := List.mem_filterMap.mp member
    split at found
    · exact held _ (Keyed.mem_of_get? found)
    · cases found
  unfold load at ran
  rw [runIn_loadBy loads plain] at ran
  obtain ⟨given, mid, built, ran⟩ := bind_gives.mp ran
  obtain ⟨response, last, called, ran⟩ := bind_gives.mp ran
  obtain ⟨found, final, searched, set⟩ := bind_gives.mp ran
  obtain ⟨wider, building⟩ := buildParams_widens data plain there within projected params
  rw [built] at building
  have calling := call_widens building.within r.client request.method given
  rw [called] at calling
  have searching := search_widens calling.within path response.data
  rw [searched] at searching
  cases set
  refine ⟨⟨wider, (building.trans calling).trans searching⟩, fun s after => ?_⟩
  dsimp only at after
  rw [Array.getElem?_modify, if_pos rfl] at after
  obtain ⟨before, _, rfl⟩ := Option.map_eq_some_iff.mp after
  rfl

/-- Data that is loaded first is there afterwards, and the load widened the region. -/
theorem loadedData_widens (there : g.resources[id]? = some r) (absent : r.data = none)
    (within : g.store.Region region) (held : ∀ entry ∈ r.identifiers, entry.2.Every region)
    (ran : runIn (loadedData id) g = (.ok v, h)) :
    (∃ wider, Widens g.store region h.store wider) ∧
      ∀ s, h.resources[id]? = some s → s.data.isSome = true := by
  unfold loadedData loadedBy at ran
  rw [runIn_tryCatch] at ran
  split at ran
  · next went =>
    obtain ⟨done, mid, loaded, kept⟩ := bind_gives.mp went
    cases ran
    have looked := cachedOr_keeps eq_lasting (.pure eq_lasting .null) id mid
    rw [kept] at looked
    obtain rfl : mid = h := looked
    exact load_widens there absent within held loaded
  · split at ran
    · obtain ⟨s, mid, _, failed⟩ := bind_gives.mp ran
      cases failed
    · cases ran

/-- Reading the data of the caller widens a region that guards it. -/
theorem data_widens (caller : context.caller = some id) (within : g.store.Region region)
    (guarded : Guarded context region g) (ran : runIn (data id) g = (.ok v, h)) :
    ∃ wider, Widens g.store region h.store wider ∧ Guarded context wider h := by
  cases there : g.resources[id]? with
  | none =>
    have unknown : runIn (resource id) g = (.error (.misuse .noCaller), g) := by
      rw [runIn_resource, there]
      rfl
    unfold data cachedOr at ran
    rw [runIn_bind_error unknown] at ran
    cases ran
  | some r =>
    unfold data at ran
    rw [runIn_cachedOr there] at ran
    cases held : r.data with
    | some v =>
      rw [held] at ran
      cases ran
      exact ⟨region, .refl within, guarded⟩
    | none =>
      rw [held] at ran
      have inside : ∀ entry ∈ r.identifiers, entry.2.Every region := by
        refine (guarded id r caller there).resolve_left ?_
        simp [held]
      obtain ⟨⟨wider, widens⟩, set⟩ := loadedData_widens there held within inside ran
      refine ⟨wider, widens, fun other s same found => .inl (set s ?_)⟩
      rw [caller] at same
      cases same
      exact found

/-! ## Extracting -/

private theorem resources_of_search {path : String} (ran : runIn (search path v) g = (.ok w, h)) :
    h.resources = g.resources := by
  have store : h = { g with store := (runIn (Path.search path v) g.store).2 } :=
    (congrArg Prod.snd ran).symm
  rw [store]

private theorem widens_of_search {path : String} (within : g.store.Region region)
    (ran : runIn (search path v) g = (.ok w, h)) :
    Widens g.store region h.store region ∧ (Guarded context region g → Guarded context region h) := by
  have widens := search_widens within path v
  rw [ran] at widens
  exact ⟨widens, fun guarded => guarded.mono (fun _ => id) (resources_of_search ran)⟩

/-- To extract a source widens a region; where the source reads data of the caller, the region must
guard it. -/
theorem extract_widens {s : IdentifierSource} (within : g.store.Region region)
    (quiet : s.kind ≠ .dataMember ∨ Guarded context region g)
    (ran : runIn (extract context s) g = (.ok v, h)) :
    ∃ wider, Widens g.store region h.store wider ∧
      (Guarded context region g → Guarded context wider h) := by
  have still : g = h → ∃ wider, Widens g.store region h.store wider ∧
      (Guarded context region g → Guarded context wider h) := by
    rintro rfl
    exact ⟨region, .refl within, id⟩
  unfold extract at ran
  split at ran
  · split at ran
    · cases ran
    · cases ran
      exact still rfl
  · obtain ⟨caller, mid, asked, given⟩ := bind_gives.mp ran
    have looked := callerOf_looks context g
    rw [asked] at looked
    split at given
    · cases given
      exact still looked
    · cases given
  · next kind =>
    split at ran
    · next id caller =>
      obtain ⟨data, mid, read, found⟩ := bind_gives.mp ran
      have guarded := quiet.resolve_left fun other => other kind
      obtain ⟨wider, widens, after⟩ := data_widens caller within guarded read
      obtain ⟨further, kept⟩ := widens_of_search widens.within found
      exact ⟨wider, widens.trans further, fun _ => kept after⟩
    · cases ran
  · next response _ _ =>
    have looked := sentParameter_looks response s.source g
    rw [ran] at looked
    exact still looked
  · obtain ⟨widens, after⟩ := widens_of_search within ran
    exact ⟨region, widens, after⟩
  · cases ran

/-! ## Columns -/

variable {list : String} {items : List Datum} {response : Response} {part : Option String}
  {before : Share → Prop} {start : Store}

/-- A path into a list of the response finds the column of a part, as a list outside the region. -/
theorem extract_column {s : IdentifierSource} (bare : Path.Bare list) (reads : s.ReadsList list)
    (answered : context.response = some response) (within : g.store.Region region)
    (well : g.store.WellRead) (lists : g.store.Lists response.data list items)
    (ran : runIn (extract context s) g = (.ok v, h)) :
    (Widens g.store region h.store region ∧ (Guarded context region g → Guarded context region h)) ∧
      ∀ part, s.source = Path.ofElements list part →
        h.store.Shows region v (g.store.column items part) := by
  obtain ⟨kind, asked, parts, same⟩ := reads
  obtain ⟨share, t, found, kept, new⟩ := Path.search_ofElements well bare parts lists
  have searched : runIn (search (Path.ofElements list asked) response.data) g =
      (.ok (.shared share), { g with store := t }) := by
    rw [search, runIn_inStore, found]
  have extracted : extract context s = search (Path.ofElements list asked) response.data := by
    unfold extract
    rw [kind, answered, same]
  rw [extracted, searched] at ran
  cases ran
  refine ⟨widens_of_search within searched, fun part source => ⟨?_, ?_⟩⟩
  · rintro _ ⟨⟩
    refine ⟨fun member => ?_, _, kept⟩
    obtain ⟨c, there⟩ := within.there share member
    have old := lt_size_of_cell? there
    omega
  · rw [source] at same
    obtain rfl := Path.ofElements_injective same
    simp only [Store.opened, kept]

/-- What was found for the sources so far: the columns of the paths into a list, each a list outside
the region, which was widened since the start. -/
structure Extracted (list : String) (items : List Datum) (start : Store) (before : Share → Prop)
    (done : List IdentifierSource) (values : Keyed Datum) (region : Share → Prop)
    (s : Store) : Prop where
  widens : Widens start before s region
  columns : ∀ source ∈ done, source.isPlural = true → ∀ part, source.source = Path.ofElements list part →
    ∃ v, Keyed.get? values source.target = some v ∧ s.Shows region v (start.column items part)

/-- The value of a further source takes the place of no column that was found. -/
theorem Extracted.put {s : IdentifierSource} {done : List IdentifierSource} {values : Keyed Datum}
    (so : Extracted list items start before done values region g.store)
    (apart : ∀ other ∈ done, other.isPlural = true → s.target = other.target → s = other)
    (widens : Widens g.store region h.store wider)
    (column : s.isPlural = true → ∀ part, s.source = Path.ofElements list part →
      h.store.Shows wider v (start.column items part)) :
    Extracted list items start before (done ++ [s]) (Keyed.put values s.target v) wider h.store := by
  refine ⟨so.widens.trans widens, fun source member plural part path => ?_⟩
  by_cases same : s = source
  · subst same
    exact ⟨v, Keyed.get?_put_self .., column plural part path⟩
  · have earlier : source ∈ done :=
      (List.mem_append.mp member).resolve_right fun last => same (List.mem_singleton.mp last).symm
    have other : source.target ≠ s.target := fun target => same (apart source earlier plural target.symm)
    obtain ⟨w, found, shows⟩ := so.columns source earlier plural part path
    exact ⟨w, by rw [Keyed.get?_put_of_ne _ _ other, found], shows.widens widens⟩

/-- A further source is extracted. -/
theorem Extracted.step {s : IdentifierSource} {done : List IdentifierSource} {values : Keyed Datum}
    (so : Extracted list items start before done values region g.store) (bare : Path.Bare list)
    (answered : context.response = some response) (reads : s.isPlural = true → s.ReadsList list)
    (quiet : s.kind ≠ .dataMember ∨ Guarded context region g)
    (apart : ∀ other ∈ done, other.isPlural = true → s.target = other.target → s = other)
    (well : start.WellRead) (lists : start.ListsBeyond before response.data list items)
    (ran : runIn (extract context s) g = (.ok v, h)) :
    ∃ wider, Extracted list items start before (done ++ [s]) (Keyed.put values s.target v)
      wider h.store ∧
      (Guarded context region g → Guarded context wider h) := by
  by_cases plural : s.isPlural = true
  · obtain ⟨beyond, same⟩ := lists.widens so.widens
    obtain ⟨⟨widens, guarded⟩, column⟩ := extract_column bare (reads plural) answered so.widens.within
      (well.learns so.widens.learns) beyond.lists ran
    refine ⟨region, so.put apart widens fun _ part path => ?_, guarded⟩
    rw [← same part]
    exact column part path
  · obtain ⟨wider, widens, guarded⟩ := extract_widens so.widens.within quiet ran
    exact ⟨wider, so.put apart widens fun plural' => absurd plural' plural, guarded⟩

/-- All sources are extracted, one after another. -/
theorem Extracted.steps {sources done : List IdentifierSource} {values found : Keyed Datum}
    (so : Extracted list items start before done values region g.store) (bare : Path.Bare list)
    (answered : context.response = some response)
    (reads : ∀ s ∈ sources, s.isPlural = true → s.ReadsList list)
    (quiet : (∀ s ∈ sources, s.kind ≠ .dataMember) ∨ Guarded context region g)
    (apart : ∀ s ∈ sources, ∀ other ∈ done ++ sources, other.isPlural = true → s.target = other.target →
      s = other)
    (well : start.WellRead) (lists : start.ListsBeyond before response.data list items)
    (ran : runIn
      (sources.foldlM (fun values s => do return Keyed.put values s.target (← extract context s))
      values) g = (.ok found, h)) :
    ∃ wider, Extracted list items start before (done ++ sources) found wider h.store := by
  induction sources generalizing done values region g with
  | nil =>
    cases ran
    exact ⟨region, by rw [List.append_nil]; exact so⟩
  | cons s rest ih =>
    rw [List.foldlM_cons] at ran
    obtain ⟨next, mid, first, ran⟩ := bind_gives.mp ran
    obtain ⟨v, _, extracted, put⟩ := bind_gives.mp first
    cases put
    obtain ⟨wider, further, guarded⟩ := so.step bare answered (reads s List.mem_cons_self)
      (quiet.imp_left fun plain => plain s List.mem_cons_self)
      (fun other member => apart s List.mem_cons_self other (List.mem_append_left _ member)) well
      lists extracted
    have joined : done ++ s :: rest = done ++ [s] ++ rest := by simp
    rw [joined] at apart ⊢
    refine ih further (fun s member => reads s (List.mem_cons_of_mem _ member)) ?_
      (fun s member => apart s (List.mem_cons_of_mem _ member)) ran
    exact quiet.imp (fun plain s member => plain s (List.mem_cons_of_mem _ member)) guarded

end Act

end ResourceGraph
