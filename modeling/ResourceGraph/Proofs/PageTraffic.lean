import ResourceGraph.Proofs.Demands
import ResourceGraph.Proofs.Enumeration

/-!
The calls that going through an enumeration makes. Its parameters are built when the first element
is asked for, and its pages are those of one paginated call. The data of its resource is loaded once
if something reads it and it is not there: before the first page where a projection reads it, and
after it where only the builder does.
-/

namespace ResourceGraph

open ResourceGraph.Graph Store

/-- What a page contributes is built from the data of the resource too. -/
def Harvest.readsData : Harvest → Bool
  | resources b => b.readsData
  | values _ | responses => false

/-- So many pages, the data being read after the first of them. -/
def Demand.pages (method : String) (reading : List Demand) : Nat → List Demand
  | 0 => []
  | further + 1 => .page method :: reading ++ List.replicate further (.page method)

@[simp]
theorem Demand.pages_nil (method : String) (n : Nat) :
    pages method [] n = List.replicate n (.page method) := by cases n <;> rfl

theorem Demand.pages_succ (method : String) (reading : List Demand) (n : Nat) :
    pages method reading (n + 1) = .page method :: reading ++ List.replicate n (.page method) := rfl

/-- The calls of an enumeration from where it stands, if so many more pages are asked for. -/
def Enumeration.demands (e : Enumeration) (g : Graph) (id : ResourceId) (method : String) (pages : Nat) :
    List Demand :=
  let read := if e.harvest.readsData then g.reading id else []
  match e.progress with
  | .untouched request =>
    if request.readsData then g.reading id ++ Demand.pages method [] pages
    else Demand.pages method read pages
  | .under _ _ => Demand.pages method read pages
  | .exhausted => []

/-- The paging calls the method of the client: it goes on along the route that the client has for
it. -/
structure Paging.Calls (p : Paging) (g : Graph) (c : ClientId) (method : String) : Prop where
  client : p.client = c
  named : p.method = method
  route : ∀ route page client, p.pages = .after route page → g.clients[c]? = some (.http client) →
    client.route method = .ok route

/-- The enumeration makes one paginated call of the method: it is still to be made, or is being
made. -/
def Enumeration.Calls (e : Enumeration) (g : Graph) (c : ClientId) (method : String) : Prop :=
  match e.progress with
  | .untouched request => request.method = method
  | .under paging _ => paging.Calls g c method
  | .exhausted => True

/-- The client has a first page for the method: a prepared one has a reply for it. -/
def Graph.HasPages (g : Graph) (c : ClientId) (method : String) : Prop :=
  ∀ script, g.clients[c]? = some (.prepared script) → (Keyed.get? script.pages method).getD [] ≠ []

/-! ## What pages need -/

/-- What the elements of a page need. -/
def Harvest.needs : Harvest → List Need
  | resources b => Act.needsOfBuilder b
  | values _ | responses => []

/-- What so many pages need with their elements. -/
def Harvest.pageNeeds (harvest : Harvest) (method : String) (pages : Nat) : List Need :=
  (List.replicate pages (.call (.page method) :: harvest.needs)).flatten

/-- What an enumeration needs from where it stands, if so many more pages are asked for. -/
def Enumeration.needs (e : Enumeration) (method : String) (pages : Nat) : List Need :=
  match e.progress with
  | .untouched request => Act.needsOfRequest request ++ e.harvest.pageNeeds method pages
  | .under _ _ => e.harvest.pageNeeds method pages
  | .exhausted => []

/-- After so many pages the enumeration that was begun as another stands where its calls go on. -/
structure Enumeration.Continues (f e : Enumeration) (method : String) (pages : Nat) (c : ClientId)
    (h : Graph) : Prop where
  context : f.context = e.context
  calls : f.Calls h c method
  started : f.needs method 0 = []
  needs : ∀ more, ∃ total, pages ≤ total ∧
    e.needs method total = e.needs method pages ++ f.needs method more

/-- The paginated call goes on, or has ended. -/
def Progress.CallsOn (progress : Progress) (h : Graph) (c : ClientId) (method : String) : Prop :=
  match progress with
  | .under paging _ => paging.Calls h c method
  | .exhausted => True
  | .untouched _ => False

namespace Harvest

variable (harvest : Harvest) (method : String) (first : List Demand)

private theorem pageNeeds_add (m n : Nat) :
    harvest.pageNeeds method (m + n) = harvest.pageNeeds method m ++ harvest.pageNeeds method n := by
  unfold pageNeeds
  rw [List.replicate_add, List.flatten_append]

private theorem demands_of_needs (rest : List Need) :
    Need.demands first (harvest.needs ++ rest) =
      if harvest.readsData then first ++ Need.demands [] rest else Need.demands first rest := by
  cases harvest with
  | resources b => exact Need.demands_reads _ _ _ _
  | values _ | responses => rfl

private theorem demands_of_pageNeeds (pages : Nat) :
    Need.demands first (harvest.pageNeeds method pages) =
      Demand.pages method (if harvest.readsData then first else []) pages := by
  induction pages generalizing first with
  | zero => rfl
  | succ further ih =>
    change Demand.page method ::
      Need.demands first (harvest.needs ++ harvest.pageNeeds method further) = _
    rw [demands_of_needs, ih, ih, ite_self]
    cases harvest.readsData <;> simp [Demand.pages_succ]

end Harvest

/-- The calls of an enumeration are those that its needs come to. -/
theorem Enumeration.demands_of_needs (e : Enumeration) (g : Graph) (id : ResourceId) (method : String)
    (pages : Nat) : Need.demands (g.reading id) (e.needs method pages) =
      e.demands g id method pages := by
  unfold Enumeration.needs Enumeration.demands
  cases e.progress with
  | untouched request =>
    dsimp only
    rw [Act.demands_of_request, Harvest.demands_of_pageNeeds, Harvest.demands_of_pageNeeds, ite_self]
  | under paging ready => exact Harvest.demands_of_pageNeeds _ _ _ _
  | exhausted => rfl

/-! ## The paginated call goes on -/

section Going

variable {p : Paging} {e : Enumeration} {g h : Graph} {c other : ClientId} {id : ResourceId}
    {method : String}
  {loading : Prop} {demands : List Demand} {pages : Nat}

/-- The routes of a client stay the same whatever is called, so that a paginated call goes on along
its route. -/
theorem Paging.Calls.traffic (calls : p.Calls g c method)
    (traffic : g.Traffic other id loading demands h) :
    p.Calls h c method where
  client := calls.client
  named := calls.named
  route route page client asked served := by
    obtain ⟨first, before, on⟩ := routes_before traffic.clients traffic.known served
    rw [on]
    exact calls.route route page first asked before

theorem Paging.Calls.quiet (calls : p.Calls g c method) (quiet : g.Quiet h) : p.Calls h c method where
  client := calls.client
  named := calls.named
  route := by
    rw [quiet.clients]
    exact calls.route

/-- Whatever is called meanwhile, the enumeration goes on with its paginated call. -/
theorem Enumeration.Calls.traffic (calls : e.Calls g c method)
    (traffic : g.Traffic other id loading demands h) : e.Calls h c method := by
  unfold Enumeration.Calls at calls ⊢
  split at calls
  · exact calls
  · exact Paging.Calls.traffic calls traffic
  · trivial

/-- The prepared pages stay the same. -/
theorem Graph.HasPages.traffic (has : g.HasPages c method) (traffic : g.Traffic c id loading demands h) :
    h.HasPages c method := by
  intro script served
  obtain ⟨first, before, on⟩ := served_before traffic.clients traffic.known served
  cases first with
  | prepared other =>
    rw [on.2]
    exact has other before
  | http client | standIn v => exact on.elim

theorem Enumeration.Continues.ended :
    Enumeration.Continues { e with progress := .exhausted } e method pages c h :=
  ⟨rfl, trivial, rfl, fun _ => ⟨pages, Nat.le_refl _, (List.append_nil _).symm⟩⟩

/-- An enumeration that has not ended goes on page by page. -/
theorem Enumeration.Continues.of_callsOn {progress : Progress} (on : progress.CallsOn h c method)
    (lasts : e.progress ≠ .exhausted) :
    Enumeration.Continues { e with progress } e method pages c h := by
  cases progress with
  | untouched request => exact on.elim
  | exhausted => exact .ended
  | under paging ready =>
    refine ⟨rfl, on, rfl, fun more => ⟨pages + more, Nat.le_add_right _ _, ?_⟩⟩
    unfold Enumeration.needs
    cases now : e.progress with
    | untouched request =>
      dsimp only
      rw [Harvest.pageNeeds_add, List.append_assoc]
    | under paging ready => exact Harvest.pageNeeds_add _ _ _ _
    | exhausted => exact absurd now lasts

end Going

namespace Act

variable {c : ClientId} {id : ResourceId} {α β : Type} {g h : Graph} {method : String} {must : Prop}
  {context : Context}

/-! ## Pages -/

/-- To ask for the next page makes one call for it and goes on with the same paginated call, or
there is none. There is one where there must be. -/
inductive Asks (c : ClientId) (id : ResourceId) (method : String) (must : Prop)
    (x : Act (Option (Response × Paging))) (g : Graph) : Prop
  | ended (takes : Takes c id [] x g) (none : ∀ found h, runIn x g = (.ok found, h) → found = none)
    (may : ¬ must)
  | asked (takes : Takes c id [.call (.page method)] x g)
    (on : ∀ found h, runIn x g = (.ok found, h) → ∃ page further, found = some (page, further) ∧
      further.Calls h c method)

namespace Asks

variable {x : Act α} {f : α → Act (Option (Response × Paging))}

private theorem weaken {other : Prop} (asks : Asks c id method must (f a) g) (weaker : other → must) :
    Asks c id method other (f a) g := by
  cases asks with
  | ended takes none may => exact .ended takes none fun other => may (weaker other)
  | asked takes on => exact .asked takes on

private theorem fail (failure : Failure) : Asks c id method must (Act.fail failure) g :=
  .asked (.fail failure) fun found h ran => by cases ran

private theorem none (ready : g.Ready c id) (may : ¬ must) :
    Asks c id method must (pure none) g :=
  .ended (.pure ready _) (fun found h ran => by cases ran; rfl) may

/-- What comes first calls nothing. -/
theorem after (ready : g.Ready c id) (keeps : Keeps Quiet x)
    (rest : ∀ a mid, runIn x g = (.ok a, mid) → g.Quiet mid → mid.Ready c id →
      Asks c id method must (f a) mid) : Asks c id method must (x >>= f) g := by
  rcases ran : runIn x g with ⟨failure | a, mid⟩
  · refine .asked (.look ready keeps fun a mid gave _ => ?_) fun found h gave => ?_
    · cases ran.symm.trans gave
    · rw [runIn_bind_error ran] at gave
      cases gave
  · have quiet := keeps.related ran
    have same : runIn (x >>= f) g = runIn (f a) mid := runIn_bind_ok ran
    cases rest a mid ran quiet (ready.quiet quiet) with
    | ended takes none may =>
      refine .ended (.look ready keeps fun b other gave _ => ?_) (fun found h => same ▸ none found h) may
      cases ran.symm.trans gave
      exact takes
    | asked takes on =>
      refine .asked (.look ready keeps fun b other gave _ => ?_) fun found h => same ▸ on found h
      cases ran.symm.trans gave
      exact takes

end Asks

private theorem preparedPage_asks {p : Paging} (ready : g.Ready c id) (client : p.client = c)
    (named : p.method = method)
    (replies : List Reply) : Asks c id method (replies ≠ []) (preparedPage p replies) g := by
  subst client named
  cases replies with
  | nil => exact .none ready fun some => some rfl
  | cons reply left =>
    refine .asked (.lookAt (tree_looks _) fun sent _ => ?_) fun found h ran => ?_
    · refine .next ready (note_takes .page) fun _ mid _ ready => .quiet ready ?_
      exact .bind quiet_lasting (respond_keeps quiet_storing.taking _ _) fun page =>
        .pure quiet_lasting _
    · obtain ⟨sent, _, _, ran⟩ := bind_gives.mp ran
      obtain ⟨_, _, _, ran⟩ := bind_gives.mp ran
      obtain ⟨page, _, _, ran⟩ := bind_gives.mp ran
      cases ran
      exact ⟨page, _, rfl, rfl, rfl, nofun⟩

private theorem sentPage_asks {p : Paging} {client : HttpClient} {route : Route} (ready : g.Ready c id)
    (same : p.client = c) (named : p.method = method) (served : g.clients[c]? = some (.http client))
    (routed : client.route method = .ok route) (params : Datum) :
    Asks c id method must (sentPage p client route params) g := by
  subst same named
  have paged : client.route (Demand.page p.method).method = .ok route := routed
  have sent : Takes p.client id [.call (.page p.method)]
      (send p.client client p.method route params) g :=
    send_takes served paged p.method params
  refine .asked (.andQuiet ready sent fun page => .pure quiet_lasting _) fun found h ran => ?_
  obtain ⟨page, mid, gave, ran⟩ := bind_gives.mp ran
  cases ran
  have further : Paging.Calls { p with pages := .after route page } g p.client p.method := by
    refine ⟨rfl, rfl, fun other from_ before asked there => ?_⟩
    cases asked
    cases served.symm.trans there
    exact routed
  exact ⟨page, _, rfl, further.traffic (sent.succeeds page h gave)⟩

/-- The next page of a paginated call. -/
theorem nextPage_asks {p : Paging} (ready : g.Ready c id) (calls : p.Calls g c method) :
    Asks c id method (p.pages = .unasked ∧ g.HasPages c method) (nextPage p) g := by
  obtain ⟨same, named, routes⟩ := calls
  refine .after ready (quiet_of_looks (client_looks _)) fun d mid ran quiet ready => ?_
  obtain ⟨there, rfl⟩ := client_gives ran
  rw [same] at there
  split
  · next script unasked =>
    refine .weaken (preparedPage_asks ready same named _) fun ⟨_, has⟩ => ?_
    rw [named]
    exact has script there
  · next client unasked =>
    refine .after ready (quiet_of_looks (lift_looks _)) fun route mid ran quiet ready => ?_
    obtain ⟨routed, rfl⟩ := lift_gives ran
    refine .after ready (objectOf_keeps quiet_storing.taking _) fun params mid _ quiet ready => ?_
    exact sentPage_asks ready same named (quiet.clients ▸ there) (named ▸ routed) params
  · next left pages =>
    refine .weaken (preparedPage_asks ready same named left) fun ⟨unasked, _⟩ => ?_
    cases pages.symm.trans unasked
  · next route page client pages =>
    have started : ¬ (p.pages = .unasked ∧ mid.HasPages c method) := fun ⟨unasked, _⟩ => by
      cases pages.symm.trans unasked
    have routed := routes route page client pages there
    split
    · exact .none ready started
    · refine .after ready (nextToken_keeps quiet_lasting (search_keeps quiet_storing) _ _)
        fun token mid _ quiet ready => ?_
      split
      · exact .none ready started
      · refine .after ready (nextParams_keeps quiet_storing.taking _ _ _)
          fun params last _ further ready => ?_
        exact sentPage_asks ready same named (further.clients ▸ quiet.clients ▸ there) routed params
  · exact .fail _
  · next pages => exact .none ready fun ⟨unasked, _⟩ => by cases pages.symm.trans unasked
  · next pages => exact .none ready fun ⟨unasked, _⟩ => by cases pages.symm.trans unasked

/-! ## Looking for the next element -/

private theorem harvestPage_takes (ready : g.Ready c id) (called : context.caller = some id)
    (harvest : Harvest)
    (page : Response) : Takes c id harvest.needs (harvestPage harvest context page) g := by
  cases harvest with
  | values path =>
    exact .quiet ready (.bind quiet_lasting (search_keeps quiet_storing _ _) fun v =>
      quiet_of_looks (valueElements_looks v))
  | resources b =>
    refine .andQuiet ready (build_takes ready { context with response := some page } called b)
      fun built => ?_
    split
    · exact .pure quiet_lasting _
    · exact .throw quiet_lasting _
  | responses => exact .quiet ready (.pure quiet_lasting _)

/-- The action needs what so many pages need, and what it gives with them is of a kind. -/
def TakesPages (c : ClientId) (id : ResourceId) (needs : Nat → List Need) (S : Nat → α → Graph → Prop)
    (x : Act α) (g : Graph) : Prop :=
  ∃ n, Takes c id (needs n) x g ∧ ∀ a h, runIn x g = (.ok a, h) → S n a h

/-- How many pages are needed after an action depends on what it gives. -/
theorem TakesPages.after {needs : List Need} {more : Nat → List Need} {S : Nat → β → Graph → Prop}
    {x : Act α} {f : α → Act β} (ready : g.Ready c id) (first : Takes c id needs x g)
    (rest : ∀ a mid, runIn x g = (.ok a, mid) → mid.Ready c id → TakesPages c id more S (f a) mid) :
    TakesPages c id (fun n => needs ++ more n) S (x >>= f) g := by
  rcases ran : runIn x g with ⟨failure | a, mid⟩
  · refine ⟨0, .bind ready first fun a mid gave _ => ?_, fun b h gave => ?_⟩
    · cases ran.symm.trans gave
    · rw [runIn_bind_error ran] at gave
      cases gave
  · obtain ⟨n, takes, gives⟩ := rest a mid ran (first.ready ready ran)
    refine ⟨n, .bind ready first fun b other gave _ => ?_, fun b h gave => ?_⟩
    · cases ran.symm.trans gave
      exact takes
    · rw [runIn_bind_ok ran] at gave
      exact gives b h gave

theorem TakesPages.skip {more : Nat → List Need} {S : Nat → β → Graph → Prop} {x : Act α} {f : α → Act β}
    (ready : g.Ready c id) (first : Takes c id [] x g)
    (rest : ∀ a mid, runIn x g = (.ok a, mid) → mid.Ready c id → TakesPages c id more S (f a) mid) :
    TakesPages c id more S (x >>= f) g := after ready first rest

/-- No page is needed any more. -/
theorem TakesPages.pure {needs : Nat → List Need} {S : Nat → α → Graph → Prop} (ready : g.Ready c id)
    (none : needs 0 = []) {a : α} (gives : S 0 a g) :
    TakesPages c id needs S (Pure.pure a : Act α) g := by
  refine ⟨0, none ▸ .pure ready a, fun b h ran => ?_⟩
  cases ran
  exact gives

/-- What follows needs nothing. -/
theorem TakesPages.andThen {needs : Nat → List Need} {S : Nat → α → Graph → Prop}
    {S' : Nat → β → Graph → Prop} {x : Act α} {f : α → Act β} (ready : g.Ready c id)
    (first : TakesPages c id needs S x g) (quiet : ∀ a, Keeps Quiet (f a))
    (gives : ∀ n a mid b h, runIn x g = (.ok a, mid) → S n a mid → runIn (f a) mid = (.ok b, h) →
      S' n b h) :
    TakesPages c id needs S' (x >>= f) g := by
  obtain ⟨n, takes, given⟩ := first
  refine ⟨n, .andQuiet ready takes quiet, fun b h ran => ?_⟩
  obtain ⟨a, mid, gave, ran⟩ := bind_gives.mp ran
  exact gives n a mid b h gave (given a mid gave) ran

/-- The paginated call goes on after the element that was found. -/
def CallsOn (c : ClientId) (method : String) (h : Graph)
    (found : Option (Element × Paging × Ready)) : Prop :=
  ∀ first further ready, found = some (first, further, ready) → further.Calls h c method

/-- To look for the next element asks for so many pages, and goes on with the same paginated call.
Where there has to be a first page, one is asked for. -/
theorem seek_takes {p : Paging} (ready : g.Ready c id) (calls : p.Calls g c method)
    (called : context.caller = some id) (harvest : Harvest) (limit : Nat) :
    TakesPages c id (harvest.pageNeeds method)
      (fun n found h => (0 < limit → p.pages = .unasked → g.HasPages c method → 0 < n) ∧
        CallsOn c method h found) (seek harvest context limit p) g := by
  induction limit generalizing g p with
  | zero => exact .pure ready rfl ⟨nofun, nofun⟩
  | succ limit ih =>
    cases nextPage_asks ready calls with
    | ended takes none may =>
      refine .skip ready takes fun found mid gave ready => ?_
      cases none found mid gave
      exact .pure ready rfl ⟨fun _ unasked has => absurd ⟨unasked, has⟩ may, nofun⟩
    | asked takes on =>
      have rest : TakesPages c id (fun n => [.call (.page method)] ++ (harvest.needs ++
          harvest.pageNeeds method n)) (fun _ => fun found h => CallsOn c method h found)
          (seek harvest context (limit + 1) p) g := by
        refine .after ready takes fun found mid gave ready => ?_
        obtain ⟨page, further, rfl, calls⟩ := on found mid gave
        have harvested := harvestPage_takes ready called harvest page
        refine .after ready harvested fun rows last gave ready => ?_
        have calls := calls.traffic (harvested.succeeds rows last gave)
        refine .skip ready (.quiet ready (quiet_of_looks (takeReady_looks rows)))
          fun taken final took ready => ?_
        obtain rfl := (takeReady_looks rows).same took
        split
        · refine .pure ready rfl fun first other left same => ?_
          cases same
          exact calls
        · obtain ⟨n, takes, gives⟩ := ih ready calls
          exact ⟨n, takes, fun found h ran => (gives found h ran).2⟩
      obtain ⟨n, takes, gives⟩ := rest
      exact ⟨n + 1, takes, fun found h ran => ⟨fun _ _ _ => Nat.succ_pos n, gives found h ran⟩⟩

theorem setProgress_quiet (enumeration : EnumerationId) (progress : Progress) :
    Keeps Quiet (setProgress enumeration progress) := fun _ => .of_same rfl rfl rfl rfl

/-- To build the parameters needs what the request does. Then the paginated call is to be made. -/
theorem openPaging_takes (ready : g.Ready c id) (called : context.caller = some id) (request : Request) :
    Takes c id (needsOfRequest request) (openPaging request context) g := by
  refine .andQuiet ready (buildParams_takes ready called request) fun params => ?_
  exact .bind quiet_lasting (quiet_of_looks (callerOf_looks context)) fun _ => .pure quiet_lasting _

section Steps

variable {enumeration : EnumerationId} {e : Enumeration} {paging : Act Paging} {needs : List Need}

/-- To look for the next element and to note where the enumeration stands then. -/
theorem advance_takes {progress : Progress} (ready : g.Ready c id)
    (there : g.enumerations[enumeration]? = some { e with progress })
    (called : e.context.caller = some id) (change : Keeps (Change anyCall) paging)
    (opens : Takes c id needs paging (g.withProgress enumeration .exhausted))
    (calls : ∀ p mid, runIn paging (g.withProgress enumeration .exhausted) = (.ok p, mid) →
      p.Calls mid c method) :
    TakesPages c id (fun n => needs ++ e.harvest.pageNeeds method n) (fun n _ h =>
      ((∀ p mid, runIn paging (g.withProgress enumeration .exhausted) = (.ok p, mid) →
        p.pages = .unasked) →
        g.HasPages c method → 0 < n) ∧
      ∃ progress, h.enumerations[enumeration]? = some { e with progress } ∧
        progress.CallsOn h c method) (advance enumeration e paging) g := by
  have exhausts : Takes c id [] (setProgress enumeration .exhausted) g :=
    .quiet ready (setProgress_quiet _ _)
  refine .skip ready exhausts fun _ begun gave ready => ?_
  obtain rfl : g.withProgress enumeration .exhausted = begun := by cases gave; rfl
  refine .after ready opens fun p mid opened ready => ?_
  refine .skip ready (.quiet ready (quiet_of_looks (client_looks _))) fun d last served ready => ?_
  obtain rfl := (client_looks _).same served
  refine .andThen ready (seek_takes ready (calls p mid opened) called e.harvest _) (fun found => ?_)
    fun n found last b h sought ⟨pages, on⟩ ran => ?_
  · split
    · exact .bind quiet_lasting (setProgress_quiet _ _) fun _ => .pure quiet_lasting _
    · exact .pure quiet_lasting _
  · have now : last.enumerations[enumeration]? = some { e with progress := .exhausted } := by
      rw [((seek_change _ _ _ _).related sought).enumerations, (change.related opened).enumerations]
      exact there_withProgress there .exhausted
    refine ⟨fun unasked has => pages (Nat.succ_pos _) (unasked p mid opened) ?_, ?_⟩
    · have has : (g.withProgress enumeration .exhausted).HasPages c method := has
      exact has.traffic (opens.succeeds p mid opened)
    · rcases found with _ | ⟨first, further, left⟩
      · cases ran
        exact ⟨.exhausted, now, trivial⟩
      · cases ran
        refine ⟨.under further left, there_withProgress now _, ?_⟩
        exact (on first further left rfl).quiet (setProgress_quiet enumeration _ last)

/-- A step that fails ends the enumeration. -/
theorem advance_ends {f : Failure} {now : Enumeration} (there : g.enumerations[enumeration]? = some e)
    (change : Keeps (Change anyCall) paging)
    (ran : runIn (advance enumeration now paging) g = (.error f, h)) :
    h.enumerations[enumeration]? = some { e with progress := .exhausted } := by
  have begun := there_withProgress there .exhausted
  rcases bind_fails.mp ran with absurd | ⟨_, start, gave, ran⟩
  · cases absurd
  obtain rfl : g.withProgress enumeration .exhausted = start := by cases gave; rfl
  rcases bind_fails.mp ran with failed | ⟨p, mid, opened, ran⟩
  · rw [(change.related failed).enumerations]
    exact begun
  rw [← (change.related opened).enumerations] at begun
  rcases bind_fails.mp ran with failed | ⟨d, last, served, ran⟩
  · obtain rfl := (client_looks _).same failed
    exact begun
  obtain rfl := (client_looks _).same served
  rcases bind_fails.mp ran with failed | ⟨found, last, _, ran⟩
  · rw [((seek_change _ _ _ _).related failed).enumerations]
    exact begun
  · split at ran <;> cases ran

/-- What a step leaves that came to so many pages: the enumeration where its calls go on. The first
step asks for a page if there is one. -/
def Leaves (g : Graph) (c : ClientId) (method : String) (enumeration : EnumerationId) (e : Enumeration)
    (pages : Nat) (h : Graph) : Prop :=
  (∀ request, e.progress = .untouched request → g.HasPages c method → 0 < pages) ∧
    ∃ f, h.enumerations[enumeration]? = some f ∧ f.Continues e method pages c h

/-- The step that builds the parameters. -/
theorem untouched_takes {request : Request} (ready : g.Ready c id)
    (there : g.enumerations[enumeration]? = some e) (called : e.context.caller = some id)
    (now : e.progress = .untouched request) (named : request.method = method) :
    TakesPages c id (e.needs method) (fun n _ => Leaves g c method enumeration e n)
      (advance enumeration e (openPaging request e.context)) g := by
  have needs : e.needs method = fun n => needsOfRequest request ++ e.harvest.pageNeeds method n := by
    funext n
    simp only [Enumeration.needs, now]
  obtain ⟨r, resourced, rfl⟩ := ready.calls
  have opened (p mid) (ran : runIn (openPaging request e.context)
      (g.withProgress enumeration .exhausted) = (.ok p, mid)) :
      p.client = r.client ∧ p.method = request.method ∧ p.pages = .unasked :=
    of_openPaging (g := g.withProgress enumeration .exhausted) called resourced ran
  obtain ⟨n, takes, gives⟩ := advance_takes ready there called
    (openPaging_change anyCall (fun _ _ => trivial) request e.context)
    (openPaging_takes (ready.quiet (setProgress_quiet enumeration .exhausted g)) called request)
    fun p mid ran => by
      obtain ⟨client, same, unasked⟩ := opened p mid ran
      exact ⟨client, same.trans named, fun route page served asked => by cases unasked.symm.trans asked⟩
  refine ⟨n, needs ▸ takes, fun found h ran => ?_⟩
  obtain ⟨pages, progress, still, on⟩ := gives found h ran
  refine ⟨fun _ _ has => pages (fun p mid ran => (opened p mid ran).2.2) has, _, still, ?_⟩
  exact .of_callsOn on (by rw [now]; nofun)

/-- A step along the paginated call: what is left of its last page comes first. -/
theorem under_takes {paging : Paging} {left : Ready} (ready : g.Ready c id)
    (there : g.enumerations[enumeration]? = some e) (called : e.context.caller = some id)
    (now : e.progress = .under paging left) (calls : paging.Calls g c method) :
    TakesPages c id (e.needs method) (fun n _ => Leaves g c method enumeration e n) (do
      setProgress enumeration .exhausted
      match ← takeReady left with
      | some (first, left) =>
        setProgress enumeration (.under paging left)
        return some first
      | none => advance enumeration e (return paging)) g := by
  have needs : e.needs method = e.harvest.pageNeeds method := by
    funext n
    simp only [Enumeration.needs, now]
  have first : ∀ request : Request, e.progress = .untouched request →
      ∀ n, g.HasPages c method → 0 < n := by
    rw [now]
    nofun
  have lasts : e.progress ≠ .exhausted := by
    rw [now]
    nofun
  have begun := there_withProgress there .exhausted
  refine .skip ready (.quiet ready (setProgress_quiet _ _)) fun _ mid gave ready => ?_
  obtain rfl : g.withProgress enumeration .exhausted = mid := by cases gave; rfl
  have calls := calls.quiet (setProgress_quiet enumeration .exhausted g)
  refine .skip ready (.quiet ready (quiet_of_looks (takeReady_looks left)))
    fun taken last took ready => ?_
  obtain rfl := (takeReady_looks left).same took
  split
  · refine ⟨0, needs ▸ .quiet ready ?_, fun found h ran => ?_⟩
    · exact .bind quiet_lasting (setProgress_quiet _ _) fun _ => .pure quiet_lasting _
    · cases ran
      refine ⟨(first · · 0), _, there_withProgress begun _, .of_callsOn ?_ lasts⟩
      exact calls.quiet (setProgress_quiet enumeration _ _)
  · have again := setProgress_quiet enumeration .exhausted (g.withProgress enumeration .exhausted)
    obtain ⟨n, takes, gives⟩ := advance_takes ready begun called (.pure change_lasting paging)
      (.pure (ready.quiet again) paging) fun p mid ran => by
        cases ran
        exact calls.quiet again
    refine ⟨n, needs ▸ takes, fun found h ran => ?_⟩
    obtain ⟨_, progress, still, on⟩ := gives found h ran
    exact ⟨(first · · n), _, still, .of_callsOn on lasts⟩

/-- A step of an enumeration needs what the pages need that it asks for. -/
theorem next_takes (ready : g.Ready c id) (there : g.enumerations[enumeration]? = some e)
    (called : e.context.caller = some id) (calls : e.Calls g c method) :
    TakesPages c id (e.needs method) (fun n _ => Leaves g c method enumeration e n)
      (next enumeration) g := by
  unfold Enumeration.Calls at calls
  refine .skip ready (.quiet ready (quiet_of_looks (.get eq_lasting))) fun now mid gave ready => ?_
  rw [runIn_get] at gave
  cases gave
  rw [there]
  dsimp only
  cases now : e.progress with
  | exhausted =>
    have ended : g.enumerations[enumeration]? = some { e with progress := .exhausted } := by
      rw [there, ← now]
    refine .pure ready (by simp [Enumeration.needs, now]) ⟨?_, _, ended, .ended⟩
    rw [now]
    nofun
  | untouched request =>
    rw [now] at calls
    exact untouched_takes ready there called now calls
  | under paging left =>
    rw [now] at calls
    exact under_takes ready there called now calls

/-- A step that fails ends the enumeration. -/
theorem next_ends {f : Failure} (there : g.enumerations[enumeration]? = some e)
    (ran : runIn (next enumeration) g = (.error f, h)) :
    h.enumerations[enumeration]? = some { e with progress := .exhausted } := by
  unfold next at ran
  rw [runIn_bind, runIn_get] at ran
  dsimp only at ran
  rw [there] at ran
  dsimp only at ran
  split at ran
  · cases ran
  · exact advance_ends there (openPaging_change anyCall (fun _ _ => trivial) _ _) ran
  · next paging ready _ =>
    have begun := there_withProgress there .exhausted
    rcases bind_fails.mp ran with absurd | ⟨_, mid, gave, ran⟩
    · cases absurd
    obtain rfl : g.withProgress enumeration .exhausted = mid := by cases gave; rfl
    rcases bind_fails.mp ran with failed | ⟨taken, last, took, ran⟩
    · obtain rfl := (takeReady_looks ready).same failed
      exact begun
    obtain rfl := (takeReady_looks ready).same took
    split at ran
    · cases ran
    · have ended := advance_ends begun (.pure change_lasting paging) ran
      exact ended

end Steps

end Act

end ResourceGraph
