import ResourceGraph.Proofs.Conserving
import ResourceGraph.Proofs.Repetition

/-!
Sending the same again. Where the data of a resource is there, building parameters reads the store
alone; and where no write of a request passes through a container that was there before, it keeps
whatever was there. So a second invocation builds what the first one built, and the client is sent
the same. A write that passes through the value of an identifier changes the identifier, and the
second invocation sends more.
-/

namespace ResourceGraph

open ResourceGraph.Graph ResourceGraph.Store ResourceGraph.Path

namespace Act

variable {g : Graph} {id : ResourceId} {r : Resource} {data : Datum}

/-! ## Building from the store -/

theorem runIn_inStore_bind {α β : Type} (work : Search α) (next : α → Search β) (g : Graph) :
    runIn (inStore (work >>= next)) g = runIn (inStore work >>= fun a => inStore (next a)) g := by
  rw [runIn_inStore, runIn_bind, runIn_bind, runIn_inStore]
  rcases runIn work g.store with ⟨f | a, s⟩ <;> rfl

/-- Where the data is there, a projection is read from the store alone. -/
theorem runIn_project (there : g.resources[id]? = some r) (held : r.data = some data) (p : Projection) :
    runIn (project Act.data (some id) p) g = runIn (inStore (p.reading r.identifiers data)) g := by
  have resourced : runIn (resource id) g = (.ok r, g) := resource_runs there
  have loaded : runIn (Act.data id) g = (.ok data, g) :=
    runIn_data_held ((held_of_there there).trans held)
  unfold project Projection.reading
  cases p.source with
  | text text => rfl
  | integer n => rfl
  | flag b => rfl
  | identifier name =>
    cases name with
    | str name =>
      dsimp only
      rw [runIn_bind_ok resourced]
      cases Keyed.get? r.identifiers name <;> rfl
    | _ => rfl
  | dataMember path =>
    dsimp only
    rw [runIn_bind_ok loaded, runIn_bind, runIn_liftResult]
    cases pathText path <;> rfl

private theorem runIn_apply (there : g.resources[id]? = some r) (held : r.data = some data)
    (params : Keyed Datum) (p : Projection) :
    runIn (apply Act.data (some id) params p) g =
      runIn (inStore (p.applying r.identifiers data params)) g := by
  unfold apply Projection.applying
  rw [runIn_bind, runIn_project there held, runIn_inStore_bind, runIn_bind]
  rcases runIn (inStore (p.reading r.identifiers data)) g with ⟨f | value, mid⟩
  · rfl
  · dsimp only
    rw [runIn_inStore_bind, runIn_bind, runIn_bind]
    have same : runIn (onStore (Store.write p.target.address value params)) mid =
      runIn (inStore (ExceptT.lift (Store.write p.target.address value params))) mid := rfl
    rw [same]
    rcases runIn (inStore (ExceptT.lift (Store.write p.target.address value params))) mid with
      ⟨f | edited, last⟩
    · rfl
    · dsimp only
      cases edited.fault <;> rfl

private theorem runIn_applyAll (there : g.resources[id]? = some r) (held : r.data = some data)
    (projections : List Projection)
    (params : Keyed Datum) : runIn (projections.foldlM (apply Act.data (some id)) params) g =
      runIn (inStore (Projection.applyingAll r.identifiers data projections params)) g := by
  induction projections generalizing g params with
  | nil => rfl
  | cons p rest ih =>
    unfold Projection.applyingAll
    rw [List.foldlM_cons, List.foldlM_cons, runIn_inStore_bind, runIn_bind, runIn_bind,
      runIn_apply there held,
      runIn_inStore]
    rcases runIn (p.applying r.identifiers data params) g.store with ⟨f | next, s⟩
    · rfl
    · exact ih (g := { g with store := s }) there next

/-- Where the data is there, parameters are built from the store alone. -/
theorem runIn_buildParams (there : g.resources[id]? = some r) (held : r.data = some data)
    (request : Request) (given : Json) :
    runIn (buildParams Act.data request { caller := some id, params := given }) g =
      runIn (inStore (request.building r.identifiers data given)) g := by
  unfold buildParams Request.building
  rw [runIn_bind, runIn_liftResult]
  cases copyParams given with
  | error f => rfl
  | ok parts =>
    obtain ⟨start, others⟩ := parts
    dsimp only
    rw [runIn_bind, runIn_applyAll there held, runIn_inStore_bind, runIn_bind]
    rcases runIn (inStore (Projection.applyingAll r.identifiers data request.params start)) g with
      ⟨f | built, mid⟩
    · rfl
    · dsimp only [paramsOf]
      split <;> rfl

/-! ## Invoking once -/

/-- Takes so many elements of an enumeration. -/
def takeElements (e : EnumerationId) : Nat → Act Unit
  | 0 => pure ()
  | count + 1 => do
    let _ ← next e
    takeElements e count

/-- Invokes an operation; if it begins an enumeration, so many elements of it are taken. -/
def carryOut (o : Operation) (context : Context) (count : Nat) : Act Unit := do
  match ← invoke o context with
  | .enumeration e => takeElements e count
  | _ => pure ()

/-- The resource has data. -/
def Laden (id : ResourceId) (g : Graph) : Prop := ∃ v, g.held id = some v

theorem attends_laden (id : ResourceId) : Attends id (Laden id) where
  held _ laden := laden
  still _ _ laden conserves _ := laden.imp fun _ held => conserves.held held

/-- The resource has data, and is the caller of an enumeration whose parameters are built. -/
def Underway (id : ResourceId) (e : EnumerationId) (g : Graph) : Prop :=
  Laden id g ∧ ∃ entry, g.enumerations[e]? = some entry ∧ entry.context.caller = some id ∧
    ∀ request, entry.progress ≠ .untouched request

private theorem attends_underway (id : ResourceId) (e : EnumerationId) : Attends id (Underway id e) where
  held _ underway := underway.1
  still _ _ underway conserves same :=
    ⟨(attends_laden id).still _ _ underway.1 conserves same, same ▸ underway.2⟩

/-- Where the enumeration is under way, to note how far it has come conserves all. -/
theorem setProgress_conserves {e : EnumerationId} {progress : Progress}
    (built : ∀ request, progress ≠ .untouched request) :
    Keeps (ConservesWhere (Underway id e)) (setProgress e progress) := by
  rintro g ⟨laden, entry, there, called, _⟩
  refine ⟨conserves_of_same rfl rfl, laden, { entry with progress }, ?_, called, built⟩
  change (g.enumerations.modify e fun entry => { entry with progress })[e]? = _
  rw [Array.getElem?_modify, if_pos rfl, there]
  rfl

private theorem advance_conserves {e : EnumerationId} {entry : Enumeration} {paging : Act Paging}
    (called : entry.context.caller = some id) (opens : Keeps (ConservesWhere (Underway id e)) paging) :
    Keeps (ConservesWhere (Underway id e)) (advance e entry paging) :=
  advance_keeps (conservesWhere_lasting _) (setProgress_conserves nofun)
    (fun _ _ => setProgress_conserves nofun) opens
    (seek_conserves (attends_underway id e) called entry.harvest)

/-- Once its parameters are built, an enumeration goes on without changing what was there. -/
theorem next_conserves (e : EnumerationId) : Keeps (ConservesWhere (Underway id e)) (next e) := by
  intro g underway
  have ⟨_, entry, there, called, begun⟩ := underway
  have lasting := conservesWhere_lasting (Underway id e)
  unfold next
  rw [runIn_bind, runIn_get]
  dsimp only
  rw [there]
  dsimp only
  split
  · exact lasting.refl g underway
  · next request same => exact absurd same (begun request)
  · next paging ready same =>
    refine (Keeps.bind lasting (setProgress_conserves (by simp)) fun _ => ?_) g underway
    refine .bind lasting ((takeReady_looks ready).keeps lasting) fun taken => ?_
    split
    · exact .bind lasting (setProgress_conserves (by simp)) fun _ => .pure lasting _
    · exact advance_conserves called (.pure lasting _)

private theorem takeElements_conserves (e : EnumerationId) (count : Nat) :
    Keeps (ConservesWhere (Underway id e)) (takeElements e count) := by
  induction count with
  | zero => exact .pure (conservesWhere_lasting _) _
  | succ count ih => exact .bind (conservesWhere_lasting _) (next_conserves e) fun _ => ih

/-! ### From the parameters on -/

/-- The action comes to a graph that has all of the middle one, and the property. -/
def Reaches {α : Type} (I : Graph → Prop) (mid g : Graph) (x : Act α) : Prop :=
  mid.Conserves (runIn x g).2 ∧ I (runIn x g).2

theorem Reaches.bind {α β : Type} {I : Graph → Prop} {mid : Graph} {x : Act α} {f : α → Act β}
    (first : Reaches I mid g x) (rest : ∀ a, Keeps (ConservesWhere I) (f a)) :
    Reaches I mid g (x >>= f) := by
  unfold Reaches at first ⊢
  rw [runIn_bind]
  rcases ran : runIn x g with ⟨f | a, last⟩
  · rw [ran] at first
    exact first
  · rw [ran] at first
    obtain ⟨further, still⟩ := rest a last first.2
    exact ⟨conserves_lasting.trans first.1 further, still⟩

end Act

/-- The graph when the parameters of a request are built. -/
def Graph.built (g : Graph) (r : Resource) (data : Datum) (request : Request) (given : Json) : Graph :=
  { g with store := (runIn (request.building r.identifiers data given) g.store).2 }

/-- The request that an operation sends. -/
def Operation.sends? (o : Operation) : Option Request :=
  match o.work with
  | .basic request | .data request _ | .enumerateData request _ | .resource request _
  | .enumerateResource request _ | .load request _ => some request
  | .reference _ => none

namespace Act

variable {g : Graph} {id : ResourceId} {r : Resource} {data : Datum} {request : Request} {given : Json}

section Sending

variable (there : g.resources[id]? = some r) (held : r.data = some data)

include there held

private theorem laden_built : Laden id (g.built r data request given) :=
  ⟨data, (held_of_there there).trans held⟩

private theorem reaches_buildParams {I : Graph → Prop} (holds : I (g.built r data request given)) :
    Reaches I (g.built r data request given) g
      (buildParams Act.data request { caller := some id, params := given }) := by
  unfold Reaches
  rw [runIn_buildParams there held, runIn_inStore]
  exact ⟨conserves_lasting.refl _, holds⟩

private theorem reaches_sendRequest :
    Reaches (Laden id) (g.built r data request given) g
      (sendRequest Act.data request { caller := some id, params := given }) := by
  have asking := asking_conserves (attends_laden id)
  refine (reaches_buildParams there held (laden_built there held)).bind fun params => ?_
  refine .bind asking.lasting ((callerOf_looks _).keeps asking.lasting) fun caller => ?_
  exact call_keeps asking.toServing (fun _ _ => trivial) _ _ _

private theorem reaches_openPaging {I : Graph → Prop} (holds : I (g.built r data request given)) :
    Reaches I (g.built r data request given) g
      (openPaging request { caller := some id, params := given }) := by
  refine (reaches_buildParams there held holds).bind fun params => ?_
  exact .bind (conservesWhere_lasting I) ((callerOf_looks _).keeps (conservesWhere_lasting I))
    fun caller =>
    .pure (conservesWhere_lasting I) _

/-- Elements of an enumeration that has just begun: with the first one the parameters are built. -/
theorem takeElements_course (harvest : Harvest) (count : Nat) :
    let begun := runIn (enumerate harvest { caller := some id, params := given } (.untouched request)) g
    let h := (runIn (takeElements g.enumerations.size count) begun.2).2
    (h.store = g.store ∧ h.resources = g.resources) ∨ (g.built r data request given).Conserves h := by
  intro begun h
  cases count with
  | zero => exact .inl ⟨rfl, rfl⟩
  | succ count =>
    right
    let e : EnumerationId := g.enumerations.size
    let entry : Enumeration := ⟨harvest, { caller := some id, params := given }, .untouched request⟩
    have entered : begun.2.enumerations[e]? = some entry := Array.getElem?_push_size
    let now : Graph := begun.2.withProgress e .exhausted
    have noted : now.enumerations[e]? = some { entry with progress := .exhausted } := by
      change (begun.2.enumerations.modify e _)[e]? = _
      rw [Array.getElem?_modify, if_pos rfl, entered]
      rfl
    have underway : Underway id e (now.built r data request given) :=
      ⟨laden_built (g := now) there held, _, noted, rfl, nofun⟩
    have first : Reaches (Underway id e) (now.built r data request given) begun.2 (next e) := by
      unfold Reaches next
      rw [runIn_bind, runIn_get]
      dsimp only
      rw [entered]
      dsimp only [entry]
      unfold advance
      rw [runIn_bind, runIn_setProgress]
      dsimp only
      refine (reaches_openPaging (g := now) there held underway).bind fun start => ?_
      have lasting := conservesWhere_lasting (Underway id e)
      refine .bind lasting ((client_looks _).keeps lasting) fun c => ?_
      refine .bind lasting (seek_conserves (attends_underway id e) rfl harvest _ _) fun found => ?_
      split
      · exact .bind lasting (setProgress_conserves (by simp)) fun _ => .pure lasting _
      · exact .pure lasting _
    have all := (first.bind fun _ => takeElements_conserves e count).1
    have same : (g.built r data request given).Conserves (now.built r data request given) :=
      conserves_of_same rfl rfl
    exact conserves_lasting.trans same all

/-- Nothing is built yet, or all that building left is there, but that a load replaces the data. -/
def Carried (g : Graph) (id : ResourceId) (r : Resource) (data : Datum) (request : Request)
    (given : Json) (o : Operation) (h : Graph) : Prop :=
  (h.store = g.store ∧ h.resources = g.resources) ∨
    ∃ k, (g.built r data request given).Conserves k ∧
      (h = k ∨ o.kind = .load ∧ ∃ v, h = k.withData id v)

private theorem carried_of_enumerates {o : Operation} {count : Nat} (harvest : Harvest)
    (enumerates : carryOut o { caller := some id, params := given } count =
      (enumerate harvest { caller := some id, params := given } (.untouched request) >>=
        fun e => takeElements e count)) :
    Carried g id r data request given o
      (runIn (carryOut o { caller := some id, params := given } count) g).2 := by
  have course := @takeElements_course g id r data request given there held harvest count
  rw [enumerates]
  exact course.imp_right fun conserves => ⟨_, conserves, .inl rfl⟩

private theorem carried_of_sends {o : Operation} {count : Nat} (rest : Response → Act Unit)
    (keeps : ∀ response, Keeps (ConservesWhere (Laden id)) (rest response))
    (sends : carryOut o { caller := some id, params := given } count =
      (sendRequest Act.data request { caller := some id, params := given } >>= rest)) :
    Carried g id r data request given o
      (runIn (carryOut o { caller := some id, params := given } count) g).2 := by
  rw [sends]
  exact .inr ⟨_, ((reaches_sendRequest there held).bind keeps).1, .inl rfl⟩

private theorem carried_of_loads {o : Operation} {count : Nat} (loads : o.kind = .load)
    {finds : Response → Act Datum}
    (keeps : ∀ response, Keeps (ConservesWhere (Laden id)) (finds response))
    (sends : carryOut o { caller := some id, params := given } count =
      (sendRequest Act.data request { caller := some id, params := given } >>= finds) >>=
        fun v => setData id v) :
    Carried g id r data request given o
      (runIn (carryOut o { caller := some id, params := given } count) g).2 := by
  have found : Reaches (Laden id) (g.built r data request given) g
      (sendRequest Act.data request { caller := some id, params := given } >>= finds) :=
    (reaches_sendRequest there held).bind keeps
  rw [sends, runIn_bind]
  unfold Reaches at found
  rcases ran : runIn (sendRequest Act.data request { caller := some id, params := given } >>= finds) g
    with ⟨f | v, k⟩
  · rw [ran] at found
    exact .inr ⟨k, found.1, .inl rfl⟩
  · rw [ran] at found
    exact .inr ⟨k, found.1, .inr ⟨loads, v, rfl⟩⟩

/-- How carrying out an operation goes. -/
theorem carryOut_course {o : Operation} (sends : o.sends? = some request) (count : Nat) :
    Carried g id r data request given o
      (runIn (carryOut o { caller := some id, params := given } count) g).2 := by
  have lasting := conservesWhere_lasting (Laden id)
  have asking := asking_conserves (attends_laden id)
  cases work : o.work with
  | basic own =>
    obtain rfl : own = request := by simpa [Operation.sends?, work] using sends
    exact carried_of_sends there held (fun _ => pure ()) (fun _ => .pure lasting _)
      (by simp [carryOut, invoke, work])
  | data own path =>
    obtain rfl : own = request := by simpa [Operation.sends?, work] using sends
    refine carried_of_sends there held
      (fun response => search path response.data >>= fun _ => pure ()) (fun response => ?_)
      (by simp [carryOut, invoke, work])
    exact .bind lasting (asking.searches _ _) fun _ => .pure lasting _
  | enumerateData own path =>
    obtain rfl : own = request := by simpa [Operation.sends?, work] using sends
    exact carried_of_enumerates there held (.values path) (by simp [carryOut, invoke, work])
  | resource own builder =>
    obtain rfl : own = request := by simpa [Operation.sends?, work] using sends
    refine carried_of_sends there held
      (fun response => build builder
        { caller := some id, params := given, response := some response } >>= fun _ => pure ())
      (fun response => ?_) (by simp [carryOut, invoke, work])
    exact .bind lasting (build_conserves (attends_laden id) _ rfl builder) fun _ => .pure lasting _
  | enumerateResource own builder =>
    obtain rfl : own = request := by simpa [Operation.sends?, work] using sends
    exact carried_of_enumerates there held (.resources builder) (by simp [carryOut, invoke, work])
  | load own path =>
    obtain rfl : own = request := by simpa [Operation.sends?, work] using sends
    exact carried_of_loads there held (by simp [Operation.kind, work])
      (fun response => asking.searches path response.data) (by simp [carryOut, invoke, runLoad, work])
  | reference builder => simp [Operation.sends?, work] at sends

end Sending

end Act

/-! ## Sending again -/

namespace Graph

variable {g : Graph} {id : ResourceId} {r : Resource} {data : Datum} {request : Request} {given : Json}

/-- What a request sends now for a resource: what the parameters spell out at every depth, or why
none are built. -/
def sent (g : Graph) (id : ResourceId) (request : Request) (given : Json) :
    Except Failure (Nat → Option Json) :=
  let built := runIn (Act.buildParams Act.data request { caller := some id, params := given }) g
  spelled (built.1, built.2.store)

/-- The resource is there with its data, and whatever it or the store holds is in the store. -/
structure Loaded (g : Graph) (id : ResourceId) (r : Resource) (data : Datum) : Prop where
  there : g.resources[id]? = some r
  held : r.data = some data
  closed : g.store.Closed
  read : g.store.WellRead
  identified : ∀ entry ∈ r.identifiers, entry.2.Every g.store.Within
  within : data.Every g.store.Within

private theorem sent_eq (there : g.resources[id]? = some r) (held : r.data = some data) :
    g.sent id request given = spelled (runIn (request.building r.identifiers data given) g.store) := by
  unfold sent
  rw [Act.runIn_buildParams there held, Act.runIn_inStore]

/-- Building parameters that spares what there was, and whatever conserves all after it, keep every
container. -/
theorem grows_of_built {k : Graph} (spares : request.Spares r.identifiers data g.store given)
    (conserves : (g.built r data request given).Conserves k) : Store.Grows g.store k.store :=
  fun i c found =>
  conserves.store.cells i c
    ((Request.building_retains spares).cells ⟨i⟩ c (Array.getElem?_eq_some_iff.mp found).1 found)

/-- No expression is kept under a text that cannot be read, once the parameters are built. -/
theorem read_of_built {k : Graph} (loaded : g.Loaded id r data)
    (conserves : (g.built r data request given).Conserves k) : k.store.WellRead := by
  have learns := (Act.buildParams_keeps Act.storing_change Act.data_keeps request
    { caller := some id, params := given } g).store
  rw [Act.runIn_buildParams loaded.there loaded.held, Act.runIn_inStore] at learns
  exact (loaded.read.learns learns).learns conserves.learns

/-- Building the parameters of a request changes only the store, and there leaves whatever was there
before as it was, and two invocations in a row of an operation send the same, as long as the writes
of the request spare what was there and what paths write out. For a load, which replaces the data,
this is so if the request reads none. -/
theorem sent_again (loaded : g.Loaded id r data)
    (spares : request.Spares r.identifiers data g.store given) :
    (∃ s, (runIn (Act.buildParams Act.data request { caller := some id, params := given }) g).2 =
        { g with store := s } ∧
      ∀ v depth, v.Every g.store.Within → s.treeTo depth v = g.store.treeTo depth v) ∧
    ∀ o count h, o.sends? = some request → (o.kind = .load → request.ReadsNoData) →
      (runIn (Act.carryOut o { caller := some id, params := given } count) g).2 = h →
        h.sent id request given = g.sent id request given ∧
        (∀ v depth, v.Every g.store.Within → h.store.treeTo depth v = g.store.treeTo depth v) ∧
        ∃ s, h.resources[id]? = some s ∧ s.identifiers = r.identifiers ∧
          (o.kind ≠ .load → s.data = some data) := by
  have still : ∀ k : Graph, (g.built r data request given).Conserves k →
      ∀ v depth, v.Every g.store.Within → k.store.treeTo depth v = g.store.treeTo depth v :=
    fun k conserves v depth within => (grows_of_built spares conserves).treeTo loaded.closed within
  refine ⟨⟨_, ?_, still _ (conserves_lasting.refl _)⟩, fun o count h sends plain ran => ?_⟩
  · rw [Act.runIn_buildParams loaded.there loaded.held, Act.runIn_inStore]
    rfl
  subst ran
  rcases @Act.carryOut_course g id r data request given loaded.there loaded.held o sends count with
    ⟨store, resources⟩ | ⟨k, conserves, ends⟩
  · have there := resources ▸ loaded.there
    refine ⟨?_, fun v depth _ => by rw [store], r, there, rfl, fun _ => loaded.held⟩
    rw [sent_eq there loaded.held, sent_eq loaded.there loaded.held, store]
  · obtain ⟨s, there, same, kept⟩ := conserves.resources id r loaded.there
    have unread : ∀ text f, Path.compile text = .error f → Keyed.get? k.store.expressions text = none :=
      fun text f => (read_of_built loaded conserves).unread
    have again : ∀ data', (data' = data ∨ ∀ p ∈ request.params, p.source.kind ≠ .dataMember) →
        spelled (runIn (request.building r.identifiers data' given) k.store) =
          spelled (runIn (request.building r.identifiers data given) g.store) := fun data' alike =>
      Request.building_again loaded.closed unread loaded.identified loaded.within alike spares
        conserves.store
    rcases ends with same' | ⟨loads, v, same'⟩
    · rw [same']
      refine ⟨?_, still k conserves, s, there, same, fun _ => kept data loaded.held⟩
      rw [sent_eq there (kept data loaded.held), sent_eq loaded.there loaded.held, same]
      exact again data (.inl rfl)
    · rw [same']
      refine ⟨?_, still k conserves, _, there_withData there v, same, fun other => absurd loads other⟩
      rw [sent_eq (there_withData there v) rfl, sent_eq loaded.there loaded.held, same]
      exact again v (.inr (plain loads))

/-- A request that projects the tags of a user, and appends to a list of its own. -/
def searching : Request :=
  ⟨"Find", [⟨⟨"X", .key "X"⟩, .identifier (.str "tags")⟩, ⟨⟨"Y[]", .append "Y"⟩, .text "z"⟩]⟩

private theorem tagged_loaded : tagged.Loaded 0
    { type := ⟨0, "User"⟩, identifiers := [("tags", .shared ⟨0⟩)], client := 0,
      data := some (.shared ⟨0⟩) }
    (.shared ⟨0⟩) where
  there := rfl
  held := rfl
  closed := by
    refine ⟨fun share content found => ?_, fun share asked found => ?_, fun text asked found => ?_⟩
    · obtain ⟨place⟩ := share
      match place with
      | 0 => cases found; exact ⟨trivial, trivial⟩
      | 1 => cases found; exact ⟨trivial, trivial⟩
      | _ + 2 => cases found
    · obtain ⟨place⟩ := share
      match place with
      | 0 => cases found
      | 1 => cases found
      | _ + 2 => cases found
    · cases found
  read := fun text known found => by cases found
  identified := by
    intro entry member
    obtain rfl := List.mem_singleton.mp member
    exact Nat.zero_lt_two
  within := Nat.zero_lt_two

private theorem searching_spares :
    searching.Spares [("tags", .shared ⟨0⟩)] (.shared ⟨0⟩) tagged.store .null := by
  rintro start others ⟨⟩
  unfold searching
  refine fun value t read =>
    ⟨fun share passed => absurd passed List.not_mem_nil, fun next u applied => ?_⟩
  have stored : next = [("X", .shared ⟨0⟩)] := by cases read; cases applied; rfl
  subst stored
  refine fun value t read => ⟨fun share passed => absurd passed ?_, fun _ _ _ => trivial⟩
  exact List.not_mem_nil

/-- A user is searched for by its tags, twice. -/
theorem sent_again_searching :
    let once := (runIn (Act.carryOut ⟨.basic searching, {}⟩ { caller := some 0 } 0) tagged).2
    once.sent 0 searching .null = tagged.sent 0 searching .null ∧
      ∃ s, once.resources[0]? = some s ∧ s.identifiers = [("tags", .shared ⟨0⟩)] ∧
        s.data = some (.shared ⟨0⟩) := by
  obtain ⟨same, _, s, there, identifiers, data⟩ :=
    (sent_again tagged_loaded searching_spares).2 ⟨.basic searching, {}⟩ 0 _ rfl nofun rfl
  exact ⟨same, s, there, identifiers, data nofun⟩

/-- The same call twice: the first sends the tag and what it appends, the second what the first
appended as well, since it was appended to the tags of the user. -/
theorem tagging_sends_more :
    let once := (runIn (Act.carryOut ⟨.basic tagging, {}⟩ { caller := some 0 } 0) tagged).2
    let twice := (runIn (Act.carryOut ⟨.basic tagging, {}⟩ { caller := some 0 } 0) once).2
    tagged.store.tree? (.shared ⟨0⟩) = some (.list [.str "a"]) ∧
      once.store.tree? (.shared ⟨0⟩) = some (.list [.str "a", .str "z"]) ∧
      twice.exchanges.toList = [.call 0 "Get" (.object [("X", .list [.str "a", .str "z"])]),
        .call 0 "Get" (.object [("X", .list [.str "a", .str "z", .str "z"])])] := by
  refine ⟨?_, ?_, ?_⟩ <;> decide +kernel

end Graph

end ResourceGraph
