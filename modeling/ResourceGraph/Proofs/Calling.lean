import ResourceGraph.Proofs.Change

/-!
The smallest actions of a graph, and the calls of a client that are made of them. A call changes the
graph as calls do, also when it fails; asking for a page is the only thing that notes a call for a
page.
-/

namespace ResourceGraph

namespace Act

open ResourceGraph.Graph Store

variable {α β : Type} {kind : Exchange → Prop} {g h : Graph}

/-! ## Runs of the smallest actions -/

@[simp]
theorem runIn_liftResult (result : Except Failure α) (g : Graph) :
    runIn (lift result) g = (result, g) := rfl

theorem runIn_inStore (work : ExceptT Failure (StateM Store) α) (g : Graph) :
    runIn (inStore work) g =
      ((runIn work g.store).1, { g with store := (runIn work g.store).2 }) := rfl

theorem runIn_onStore (change : StateM Store α) (g : Graph) :
    runIn (onStore change) g =
      (.ok (change.run g.store).1, { g with store := (change.run g.store).2 }) := rfl

@[simp]
theorem runIn_opened (v : Datum) (g : Graph) : runIn (opened v) g = (.ok (g.store.opened v), g) := rfl

@[simp]
theorem runIn_typeOf (ref : TypeRef) (g : Graph) :
    runIn (typeOf ref) g = (.ok ((g.types[ref.index]?).getD { name := ref.name }), g) := rfl

@[simp]
theorem runIn_note (x : Exchange) (g : Graph) :
    runIn (note x) g = (.ok (), { g with exchanges := g.exchanges.push x }) := rfl

@[simp]
theorem runIn_changeResource (id : ResourceId) (f : Resource → Resource) (g : Graph) :
    runIn (changeResource id f) g = (.ok (), { g with resources := g.resources.modify id f }) := rfl

@[simp]
theorem runIn_add (r : Resource) (g : Graph) :
    runIn (add r) g = (.ok g.resources.size, { g with resources := g.resources.push r }) := rfl

@[simp]
theorem runIn_replaceClient (id : ClientId) (c : Client) (g : Graph) :
    runIn (replaceClient id c) g = (.ok (), { g with clients := g.clients.setIfInBounds id c }) := rfl

theorem runIn_resource (id : ResourceId) (g : Graph) :
    runIn (resource id) g =
      ((g.resources[id]?).elim (.error (.misuse .noCaller)) .ok, g) := by
  unfold resource
  rw [runIn_bind, runIn_get]
  dsimp only
  cases g.resources[id]? <;> rfl

theorem runIn_client (id : ClientId) (g : Graph) :
    runIn (client id) g = ((g.clients[id]?).elim (.error (.misuse .noCaller)) .ok, g) := by
  unfold client
  rw [runIn_bind, runIn_get]
  dsimp only
  cases g.clients[id]? <;> rfl

/-- A resource that is there is found. -/
theorem resource_runs {id : ResourceId} {r : Resource} (there : g.resources[id]? = some r) :
    runIn (resource id) g = (.ok r, g) := by
  rw [runIn_resource, there]
  rfl

theorem callerOf_runs {context : Context} {id : ResourceId} {r : Resource}
    (called : context.caller = some id)
    (there : g.resources[id]? = some r) : runIn (callerOf context) g = (.ok r, g) := by
  unfold callerOf
  rw [called]
  exact resource_runs there

/-- A client that is there is found. -/
theorem client_runs {id : ClientId} {c : Client} (there : g.clients[id]? = some c) :
    runIn (client id) g = (.ok c, g) := by
  rw [runIn_client, there]
  rfl

theorem runIn_tree (v : Datum) (g : Graph) :
    runIn (tree v) g = ((g.store.shownTree? v).elim (.error (.misuse .endless)) .ok, g) := by
  unfold tree
  rw [runIn_bind, runIn_get]
  dsimp only
  cases g.store.shownTree? v <;> rfl

theorem resource_gives {id : ResourceId} {r : Resource} (ran : runIn (resource id) g = (.ok r, h)) :
    g.resources[id]? = some r ∧ h = g := by
  rw [runIn_resource] at ran
  cases there : g.resources[id]? with
  | none =>
    rw [there] at ran
    cases ran
  | some s =>
    rw [there] at ran
    cases ran
    exact ⟨rfl, rfl⟩

theorem client_gives {id : ClientId} {c : Client} (ran : runIn (client id) g = (.ok c, h)) :
    g.clients[id]? = some c ∧ h = g := by
  rw [runIn_client] at ran
  cases there : g.clients[id]? with
  | none =>
    rw [there] at ran
    cases ran
  | some d =>
    rw [there] at ran
    cases ran
    exact ⟨rfl, rfl⟩

/-! ## Actions that leave the graph as it is -/

theorem resource_looks (id : ResourceId) : Looks (resource id) := fun g => by rw [runIn_resource]

theorem client_looks (id : ClientId) : Looks (client id) := fun g => by rw [runIn_client]

theorem tree_looks (v : Datum) : Looks (tree v) := fun g => by rw [runIn_tree]

theorem lift_looks (result : Except Failure α) : Looks (lift result) := fun _ => rfl

theorem opened_looks (v : Datum) : Looks (opened v) := fun _ => rfl

theorem typeOf_looks (ref : TypeRef) : Looks (typeOf ref) := fun _ => rfl

theorem callerOf_looks (context : Context) : Looks (callerOf context) := by
  unfold callerOf
  split
  · exact resource_looks _
  · exact .throw eq_lasting _

theorem entriesOf_looks (v : Datum) : Looks (entriesOf v) := by
  refine .bind eq_lasting (.get eq_lasting) fun g => ?_
  split
  · exact .pure eq_lasting _
  · exact .throw eq_lasting _

theorem sentTree_looks (named : Keyed Datum) (others : List (Datum × Datum)) :
    Looks (sentTree named others) := by
  unfold sentTree
  split
  · exact .pure eq_lasting _
  · exact .bind eq_lasting (tree_looks _) fun _ => .pure eq_lasting _

/-! ## Calling -/

/-- A relation that allows whatever is added to the store. -/
structure Taking (R : Graph → Graph → Prop) : Prop where
  lasting : Lasting R
  adds : ∀ g s, g.store.Adds s → R g { g with store := s }

/-- A relation that allows every change of the store which keeps only expressions that can be read. -/
structure Storing (R : Graph → Graph → Prop) : Prop where
  lasting : Lasting R
  store : ∀ g s, g.store.Learns s → R g { g with store := s }

/-- A relation that allows what comes of calls of the kind. -/
structure Serving (kind : Exchange → Prop) (R : Graph → Graph → Prop) : Prop extends Taking R where
  notes : ∀ g x, kind x → R g { g with exchanges := g.exchanges.push x }
  replaces : ∀ (g : Graph) (id : ClientId) (c d : Client), g.clients[id]? = some c → c.GoesOn d →
    R g { g with clients := g.clients.setIfInBounds id d }

section Relations

variable {R : Graph → Graph → Prop}

theorem Storing.taking (storing : Storing R) : Taking R :=
  ⟨storing.lasting, fun g s adds => storing.store g s adds.learns⟩

theorem storing_calls : Storing (Calls kind) where
  lasting := calls_lasting
  store _ _ learns := ⟨learns, rfl, rfl, rfl,
    fun _ c there => ⟨c, there, Client.goesOn_lasting.refl c⟩, rfl, [], by simp, by simp⟩

theorem storing_change : Storing (Change kind) where
  lasting := change_lasting
  store g s learns := (storing_calls.store g s learns).change

theorem serving_calls : Serving kind (Calls kind) where
  toTaking := storing_calls.taking
  notes _ x allowed := ⟨learns_lasting.refl _, rfl, rfl, rfl,
    fun _ c there => ⟨c, there, Client.goesOn_lasting.refl c⟩, rfl, [x], by simp, by simpa using allowed⟩
  replaces g id c d there on := by
    refine ⟨learns_lasting.refl _, rfl, rfl, rfl, ?_, by simp, [], by simp, by simp⟩
    intro other e found
    by_cases same : id = other
    · subst same
      obtain ⟨inside, _⟩ := Array.getElem?_eq_some_iff.mp there
      rw [there] at found
      cases found
      exact ⟨d, by simp [inside], on⟩
    · exact ⟨e, by simp [same, found], Client.goesOn_lasting.refl e⟩

private theorem inStore_keeps (storing : Storing R) {work : ExceptT Failure (StateM Store) α}
    (learns : Keeps Learns work) : Keeps R (inStore work) := by
  intro g
  rw [runIn_inStore]
  exact storing.store g _ (learns g.store)

theorem onStore_keeps (storing : Storing R) {change : StateM Store α} (learns : Steady Learns change) :
    Keeps R (onStore change) := inStore_keeps storing (.lift learns)

private theorem onStore_takes (taking : Taking R) {change : StateM Store α} (adds : Steady Adds change) :
    Keeps R (onStore change) := by
  intro g
  rw [runIn_onStore]
  exact taking.adds g _ (adds g.store)

theorem share_keeps (taking : Taking R) (v : Datum) : Keeps R (share v) :=
  onStore_takes taking (share_adds v)

theorem receive_keeps (taking : Taking R) (given : Json) : Keeps R (receive given) :=
  share_keeps taking _

theorem search_keeps (storing : Storing R) (path : String) (v : Datum) : Keeps R (search path v) :=
  inStore_keeps storing (Path.search_learns path v)

/-- The response with an answer: the reply may say that other parameters were sent. -/
def answered (r : Reply) (params data : Datum) : Act Response :=
  match r.params with
  | none => return ⟨data, params⟩
  | some other => return ⟨data, ← receive other⟩

private theorem answered_keeps (taking : Taking R) (r : Reply) (params data : Datum) :
    Keeps R (answered r params data) := by
  have lasting := taking.lasting
  unfold answered
  split
  · exact .pure lasting _
  · exact .bind lasting (receive_keeps taking _) fun _ => .pure lasting _

/-- To answer with a reply adds to the store. -/
theorem respond_keeps (taking : Taking R) (reply : Option Reply) (params : Datum) :
    Keeps R (respond reply params) := by
  have lasting := taking.lasting
  unfold respond
  split
  · exact .pure lasting _
  · next r =>
    dsimp only
    split
    · exact .bind lasting (.throw lasting _) (answered_keeps taking r params)
    · exact .bind lasting (onStore_takes taking (copy_adds params)) (answered_keeps taking r params)
    · exact .bind lasting (receive_keeps taking _) (answered_keeps taking r params)

theorem note_keeps (serving : Serving kind R) {x : Exchange} (allowed : kind x) : Keeps R (note x) :=
  fun g => serving.notes g x allowed

/-- A client is replaced by what it goes on as. -/
theorem replaceClient_keeps (serving : Serving kind R) {id : ClientId} {c d : Client} (on : c.GoesOn d) :
    KeepsWhere (fun g => g.clients[id]? = some c) R (replaceClient id d) :=
  fun g there => serving.replaces g id c d there on

theorem send_keeps (serving : Serving kind R) (single : ∀ x : Exchange, x.Single → kind x)
    {id : ClientId} (c : HttpClient) (method : String) (route : Route) (params : Datum) :
    KeepsWhere (fun g => g.clients[id]? = some (.http c)) R (send id c method route params) := by
  have lasting := serving.lasting
  refine .look lasting (entriesOf_looks params) fun entries => ?_
  refine .look lasting (.get eq_lasting) fun g => ?_
  refine .look lasting (lift_looks _) fun addressed => ?_
  refine .look lasting (sentTree_looks _ _) fun sent => ?_
  refine .bind lasting (note_keeps serving (single _ rfl)) (fun _ there => there) fun _ => ?_
  split
  · exact .of (.throw lasting _)
  · next reply rest left =>
    have on : (Client.http c).GoesOn (.http { c with replies := rest }) :=
      ⟨rfl, left ▸ List.suffix_cons reply rest⟩
    refine .bindThen lasting (replaceClient_keeps serving on) fun _ => ?_
    refine .bind lasting ((lift_looks _).keeps lasting) fun data => ?_
    exact .bind lasting (receive_keeps serving.toTaking data) fun _ => .pure lasting _

/-- A call of a client. -/
theorem call_keeps (serving : Serving kind R) (single : ∀ x : Exchange, x.Single → kind x)
    (id : ClientId)
    (method : String) (params : Datum) : Keeps R (call id method params) := by
  have lasting := serving.lasting
  refine .bindAfter lasting ((client_looks id).keeps lasting) fun g c mid ran => ?_
  obtain ⟨there, rfl⟩ := client_gives ran
  cases c with
  | prepared script =>
    have called : KeepsWhere (fun g => g.clients[id]? = some (.prepared script)) R (do
        note (.call id method (← tree params))
        replaceClient id (.prepared (script.askedOnceMore method))
        respond (script.reply? method) params) := by
      refine .look lasting (tree_looks params) fun sent => ?_
      refine .bind lasting (note_keeps serving (single _ rfl)) (fun _ there => there) fun _ => ?_
      exact .bindThen lasting (replaceClient_keeps serving ⟨rfl, rfl⟩) fun _ =>
        respond_keeps serving.toTaking _ _
    exact called _ there
  | http c =>
    have called : KeepsWhere (fun g => g.clients[id]? = some (.http c)) R (do
        let route ← lift (c.route method)
        send id c method route params) :=
      .look lasting (lift_looks _) fun route => send_keeps serving single c method route params
    exact called _ there
  | standIn v => exact lasting.refl _

end Relations

/-! ## Asking for pages -/

/-- Any call at all. -/
abbrev anyCall : Exchange → Prop := fun _ => True

/-- A relation that allows what comes of asking for pages: of any calls, and of searching the pages. -/
structure Asking (R : Graph → Graph → Prop) : Prop extends Serving anyCall R where
  searches : ∀ path v, Keeps R (search path v)

private theorem asking_calls : Asking (Calls anyCall) := ⟨serving_calls, search_keeps storing_calls⟩

theorem objectOf_keeps {R : Graph → Graph → Prop} (taking : Taking R) (v : Datum) :
    Keeps R (objectOf v) :=
  .bind taking.lasting ((entriesOf_looks v).keeps taking.lasting) fun _ => share_keeps taking _

theorem nextToken_keeps {R : Graph → Graph → Prop} (lasting : Lasting R)
    (searches : ∀ path v, Keeps R (search path v)) (pagination : Pagination) (page : Response) :
    Keeps R (nextToken pagination page) :=
  .bind lasting (searches _ _) fun token =>
    .bind lasting ((opened_looks token).keeps lasting) fun _ => .pure lasting _

theorem nextParams_keeps {R : Graph → Graph → Prop} (taking : Taking R) (pagination : Pagination)
    (page : Response) (token : Datum) : Keeps R (nextParams pagination page token) :=
  .bind taking.lasting ((opened_looks _).keeps taking.lasting) fun _ => share_keeps taking _

/-- Work on the store leaves every client as it is. -/
theorem clients_of_storing {x : Act α} (keeps : ∀ {R : Graph → Graph → Prop}, Storing R → Keeps R x)
    (g : Graph) : (runIn x g).2.clients = g.clients :=
  keeps (R := fun g h => h.clients = g.clients)
    ⟨⟨fun _ => rfl, fun first second => second.trans first⟩, fun _ _ _ => rfl⟩ g

section Asking

variable {R : Graph → Graph → Prop} (asking : Asking R)

include asking

private theorem preparedPage_keeps (p : Paging) (replies : List Reply) :
    Keeps R (preparedPage p replies) := by
  have lasting := asking.lasting
  cases replies with
  | nil => exact .pure lasting _
  | cons reply left =>
    refine .bind lasting ((tree_looks _).keeps lasting) fun sent => ?_
    refine .bind lasting (note_keeps asking.toServing trivial) fun _ => ?_
    exact .bind lasting (respond_keeps asking.toTaking _ _) fun _ => .pure lasting _

private theorem sentPage_keeps (p : Paging) (c : HttpClient) (route : Route) (params : Datum) :
    KeepsWhere (fun g => g.clients[p.client]? = some (.http c)) R (sentPage p c route params) :=
  .bindThen asking.lasting (send_keeps asking.toServing (fun _ _ => trivial) c p.method route params)
    fun _ => .pure asking.lasting _

/-- The next page of a paginated call. -/
theorem nextPage_keeps (p : Paging) : Keeps R (nextPage p) := by
  have lasting := asking.lasting
  refine .bindAfter lasting ((client_looks _).keeps lasting) fun g c mid ran => ?_
  obtain ⟨there, rfl⟩ := client_gives ran
  split
  · exact preparedPage_keeps asking _ _ _
  · next c _ =>
    have asked : KeepsWhere (fun g => g.clients[p.client]? = some (.http c)) R (do
        let route ← lift (c.route p.method)
        sentPage p c route (← objectOf p.params)) := by
      refine .look lasting (lift_looks _) fun route => ?_
      refine .bind lasting (objectOf_keeps asking.toTaking _) (fun g there => ?_) fun params =>
        sentPage_keeps asking p c route params
      rw [clients_of_storing fun storing => objectOf_keeps storing.taking _]
      exact there
    exact asked _ there
  · exact preparedPage_keeps asking _ _ _
  · next route page c _ =>
    split
    · exact lasting.refl _
    · next pagination _ =>
      refine (?_ : KeepsWhere (fun g => g.clients[p.client]? = some (.http c)) R _) _ there
      refine .bind lasting (nextToken_keeps lasting asking.searches _ _) (fun g there => ?_)
        fun token => ?_
      · rw [clients_of_storing fun storing => nextToken_keeps storing.lasting (search_keeps storing) _ _]
        exact there
      · split
        · exact .of (.pure lasting _)
        · refine .bind lasting (nextParams_keeps asking.toTaking _ _ _) (fun g there => ?_)
            fun params => sentPage_keeps asking p c route params
          rw [clients_of_storing fun storing => nextParams_keeps storing.taking _ _ _]
          exact there
  · exact lasting.refl _
  · exact lasting.refl _
  · exact lasting.refl _

end Asking

theorem nextPage_calls (p : Paging) : Keeps (Calls anyCall) (nextPage p) := nextPage_keeps asking_calls p

end Act

end ResourceGraph
