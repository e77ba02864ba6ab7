import ResourceGraph.Proofs.RuleFaults
import ResourceGraph.Graph.Enumerate

/-!
Going through enumerations of a safe graph. A page is asked for with a route whose tokens can be
found, its elements are made by a safe harvest, and while the next element is looked for the
enumeration counts as exhausted; so a step blames no rules but those of the request that opens the
paging, and leaves a safe graph.
-/

namespace ResourceGraph

open ResourceGraph.Graph Store

/-- The graph in which an enumeration has come so far. -/
def Graph.withProgress (g : Graph) (id : EnumerationId) (progress : Progress) : Graph :=
  { g with enumerations := g.enumerations.modify id fun e => { e with progress } }

namespace Graph

variable {g : Graph} {id : EnumerationId} {e : Enumeration}

theorem there_withProgress (there : g.enumerations[id]? = some e) (progress : Progress) :
    (g.withProgress id progress).enumerations[id]? = some { e with progress } := by
  change (g.enumerations.modify id _)[id]? = _
  rw [Array.getElem?_modify, there]
  simp

theorem withProgress_withProgress (g : Graph) (id : EnumerationId) (first second : Progress) :
    (g.withProgress id first).withProgress id second = g.withProgress id second := by
  have same : (g.enumerations.modify id fun e => { e with progress := first }).modify id
      (fun e => { e with progress := second }) =
        g.enumerations.modify id fun e => { e with progress := second } := by
    refine Array.ext_getElem? fun i => ?_
    rw [Array.getElem?_modify, Array.getElem?_modify, Array.getElem?_modify]
    split
    · rw [Option.map_map]
      rfl
    · rfl
  unfold withProgress
  rw [same]

theorem withProgress_self {progress : Progress}
    (there : g.enumerations[id]? = some { e with progress }) :
    g.withProgress id progress = g := by
  have same : (g.enumerations.modify id fun e => { e with progress }) = g.enumerations := by
    refine Array.ext_getElem? fun i => ?_
    rw [Array.getElem?_modify]
    split
    · next here =>
      subst here
      rw [there]
      rfl
    · rfl
  unfold withProgress
  rw [same]

end Graph

namespace Act

variable {α β : Type} {E : Failure → Prop} {g h : Graph} {caller : Option ResourceId}

/-! ## Pages -/

theorem harmless_preparedPage (p : Paging) (replies : List Reply) :
    Harmless (preparedPage p replies) := by
  cases replies with
  | nil => exact .pure _
  | cons reply left =>
    refine .seq (harmless_tree _) fun sent => .seq (harmless_note _) fun _ => ?_
    exact .seq (harmless_respond _ _) fun _ => .pure _

theorem harmless_sentPage (p : Paging) (c : HttpClient) (route : Route) (params : Datum) :
    Harmless (sentPage p c route params) :=
  .seq (harmless_send _ _ _ _ _) fun _ => .pure _

theorem harmless_objectOf (v : Datum) : Harmless (objectOf v) :=
  .seq (harmless_entriesOf v) fun _ => harmless_onStore _

/-- Asking for a page fails because of the client or of what is sent. -/
theorem harmless_nextPage {p : Paging} (proper : p.Proper) : Harmless (nextPage p) := by
  refine .seq (harmless_client _) fun c => ?_
  split
  · exact harmless_preparedPage _ _
  · refine .seq (harmless_lift fun f => route_harmless) fun route => ?_
    exact .seq (harmless_objectOf _) fun params => harmless_sentPage _ _ _ _
  · exact harmless_preparedPage _ _
  · next route page c pages =>
    split
    · exact .pure _
    · next pagination paginated =>
      have found : Harmless (nextToken pagination page) := by
        refine .seq (harmless_search (proper route page pages pagination paginated) _) fun token => ?_
        exact .seq (harmless_opened _) fun _ => .pure _
      refine .seq found fun token => ?_
      split
      · exact .pure _
      · refine .seq (.seq (harmless_opened _) fun _ => harmless_onStore _) fun params => ?_
        exact harmless_sentPage _ _ _ _
  · exact harmless_fail not_false
  · exact .pure _
  · exact .pure _

private theorem of_preparedPage {p further : Paging} {page : Response} {replies : List Reply}
    (ran : runIn (preparedPage p replies) g = (.ok (some (page, further)), h)) :
    ∃ left, further = { p with pages := .prepared left } := by
  cases replies with
  | nil => cases ran
  | cons reply left =>
    obtain ⟨_, _, _, ran⟩ := bind_gives.mp ran
    obtain ⟨_, _, _, ran⟩ := bind_gives.mp ran
    obtain ⟨_, _, _, ran⟩ := bind_gives.mp ran
    cases ran
    exact ⟨left, rfl⟩

private theorem of_sentPage {p further : Paging} {c : HttpClient} {route : Route} {params : Datum}
    {page : Response} (ran : runIn (sentPage p c route params) g = (.ok (some (page, further)), h)) :
    further = { p with pages := .after route page } := by
  obtain ⟨_, _, _, ran⟩ := bind_gives.mp ran
  cases ran
  rfl

/-- What follows a page can be asked for as well. -/
theorem proper_of_nextPage {p further : Paging} {page : Response} (safe : g.Safe E) (proper : p.Proper)
    (ran : runIn (nextPage p) g = (.ok (some (page, further)), h)) : further.Proper := by
  obtain ⟨c, mid, gave, asked⟩ := bind_gives.mp ran
  obtain ⟨there, rfl⟩ := client_gives gave
  have prepared : ∀ {replies : List Reply},
      runIn (preparedPage p replies) mid = (.ok (some (page, further)), h) → further.Proper := by
    intro replies given
    obtain ⟨left, rfl⟩ := of_preparedPage given
    intro route page pages
    cases pages
  split at asked
  · exact prepared asked
  · next c _ =>
    obtain ⟨route, _, known, made⟩ := bind_gives.mp asked
    obtain ⟨_, _, _, sent⟩ := bind_gives.mp made
    rw [of_sentPage sent]
    intro other page pages
    cases pages
    rw [runIn_liftResult, Prod.mk.injEq] at known
    have found := known.1
    unfold HttpClient.route at found
    split at found
    · next listed =>
      cases found
      exact safe.clients _ _ there _ (Keyed.mem_of_get? listed)
    · cases found
  · exact prepared asked
  · next route page c pages =>
    split at asked
    · cases asked
    · obtain ⟨token, _, _, found⟩ := bind_gives.mp asked
      split at found
      · cases found
      · obtain ⟨_, _, _, sent⟩ := bind_gives.mp found
        rw [of_sentPage sent]
        intro other page same
        cases same
        exact proper route _ pages
  · cases asked
  · cases asked
  · cases asked

/-! ## What pages contribute -/

private theorem harmless_parts (v : Datum) : Harmless (parts v) := by
  refine .seq (harmless_opened v) fun content => ?_
  split
  · exact .pure _
  · exact .pure _
  · split
    · exact .pure _
    · exact harmless_fail not_false

theorem harmless_valueElements (v : Datum) : Harmless (valueElements v) := by
  refine .seq (harmless_opened v) fun content => ?_
  split
  · exact .pure _
  · refine .seq (harmless_parts v) fun all => .seq (harmless_opened v) fun content => ?_
    split <;> exact .pure _

theorem harmless_takeReady (ready : Ready) : Harmless (takeReady ready) := by
  unfold takeReady
  split
  · exact .pure _
  · exact .pure _
  · refine .seq (harmless_opened _) fun content => ?_
    split <;> exact .pure _
  · refine .seq (.seq (harmless_opened _) fun content => ?_) fun size => ?_
    · split <;> exact .pure _
    split
    · exact harmless_fail not_false
    · split <;> exact .pure _

theorem parts_looks (v : Datum) : Looks (parts v) := by
  refine .bind eq_lasting (opened_looks v) fun content => ?_
  split
  · exact .pure eq_lasting _
  · exact .pure eq_lasting _
  · split
    · exact .pure eq_lasting _
    · exact .throw eq_lasting _

theorem valueElements_looks (v : Datum) : Looks (valueElements v) := by
  refine .bind eq_lasting (opened_looks v) fun content => ?_
  split
  · exact .pure eq_lasting _
  · refine .bind eq_lasting (parts_looks v) fun all =>
      .bind eq_lasting (opened_looks v) fun content => ?_
    split <;> exact .pure eq_lasting _

theorem takeReady_looks (ready : Ready) : Looks (takeReady ready) := by
  unfold takeReady
  split
  · exact .pure eq_lasting _
  · exact .pure eq_lasting _
  · refine .bind eq_lasting (opened_looks _) fun content => ?_
    split <;> exact .pure eq_lasting _
  · refine .bind eq_lasting (.bind eq_lasting (opened_looks _) fun content => ?_) fun size => ?_
    · split <;> exact .pure eq_lasting _
    · split
      · exact .throw eq_lasting _
      · split <;> exact .pure eq_lasting _

/-- What a page contributes changes a graph as searching it or building from it does. -/
theorem harvestPage_keeps {R : Graph → Graph → Prop} (lasting : Lasting R)
    (searches : ∀ path v, Keeps R (search path v)) (harvest : Harvest) (context : Context)
    (page : Response) (builds : ∀ b, Keeps R (build b { context with response := some page })) :
    Keeps R (harvestPage harvest context page) := by
  cases harvest with
  | values path =>
    exact .bind lasting (searches _ _) fun v => (valueElements_looks v).keeps lasting
  | resources b =>
    refine .bind lasting (builds b) fun built => ?_
    split
    · exact .pure lasting _
    · exact .throw lasting _
  | responses => exact .pure lasting _

theorem harvestPage_change (kind : Exchange → Prop) (single : ∀ x : Exchange, x.Single → kind x)
    (harvest : Harvest) (context : Context) (page : Response) :
    Keeps (Change kind) (harvestPage harvest context page) :=
  harvestPage_keeps change_lasting (search_keeps storing_change) harvest context page
    fun b => build_change single b _

private theorem harvestPage_blameless (excuses : Excuses E) {harvest : Harvest} {context : Context}
    (page : Response) :
    Fails (fun g => g.Safe E ∧ harvest.Safe g context.caller) E (harvestPage harvest context page) := by
  cases harvest with
  | values path =>
    intro g f h ⟨_, readable⟩ ran
    refine Harmless.fails (I := fun _ => True) excuses ?_ g f h trivial ran
    exact .seq (harmless_search readable _) fun v => harmless_valueElements v
  | resources b =>
    intro g f h ⟨safe, declared, knows, fine⟩ ran
    rcases bind_fails.mp ran with failed | ⟨built, mid, _, unusable⟩
    · exact build_blameless excuses { context with response := some page } fine
        (fun _ => rfl) g f h ⟨safe, knows⟩ failed
    · split at unusable
      · cases unusable
      · cases unusable
        exact excuses _ not_false
  | responses => exact .pure _

/-! ## Steps of an enumeration -/

/-- To look for the next element changes a graph as asking for pages and harvesting them does. -/
theorem seek_keeps {R : Graph → Graph → Prop} (lasting : Lasting R) (pages : ∀ p, Keeps R (nextPage p))
    (harvest : Harvest) (context : Context)
    (harvests : ∀ page, Keeps R (harvestPage harvest context page))
    (limit : Nat) (p : Paging) : Keeps R (seek harvest context limit p) := by
  induction limit generalizing p with
  | zero => exact .pure lasting _
  | succ limit ih =>
    refine .bind lasting (pages p) fun asked => ?_
    split
    · exact .pure lasting _
    · refine .bind lasting (harvests _) fun ready => ?_
      refine .bind lasting ((takeReady_looks ready).keeps lasting) fun taken => ?_
      split
      · exact .pure lasting _
      · exact ih _

theorem seek_change (harvest : Harvest) (context : Context) (limit : Nat) (p : Paging) :
    Keeps (Change anyCall) (seek harvest context limit p) :=
  seek_keeps change_lasting (fun p g => (nextPage_calls p g).change) harvest context
    (harvestPage_change anyCall (fun _ _ => trivial) harvest context) limit p

/-- To advance an enumeration changes a graph as opening its paging and looking for the next element
does. -/
theorem advance_keeps {R : Graph → Graph → Prop} (lasting : Lasting R) {id : EnumerationId}
    {e : Enumeration} {paging : Act Paging} (ends : Keeps R (setProgress id .exhausted))
    (notes : ∀ further ready, Keeps R (setProgress id (.under further ready))) (opens : Keeps R paging)
    (seeks : ∀ limit p, Keeps R (seek e.harvest e.context limit p)) : Keeps R (advance id e paging) := by
  refine .bind lasting ends fun _ => .bind lasting opens fun start => ?_
  refine .bind lasting ((client_looks _).keeps lasting) fun c => ?_
  refine .bind lasting (seeks _ _) fun found => ?_
  split
  · exact .bind lasting (notes _ _) fun _ => .pure lasting _
  · exact .pure lasting _

theorem openPaging_change (kind : Exchange → Prop) (single : ∀ x : Exchange, x.Single → kind x)
    (request : Request) (context : Context) : Keeps (Change kind) (openPaging request context) := by
  refine .bind change_lasting (buildParams_keeps storing_change (data_change single) _ _)
    fun params => ?_
  exact .bind change_lasting ((callerOf_looks _).keeps change_lasting) fun caller =>
    .pure change_lasting _

/-- To look for the next element on further pages. -/
theorem seek_blameless (excuses : Excuses E) {harvest : Harvest} {context : Context} {limit : Nat}
    {p : Paging} (proper : p.Proper) :
    Fails (fun g => g.Safe E ∧ harvest.Safe g context.caller) E (seek harvest context limit p) := by
  induction limit generalizing p with
  | zero => exact .pure _
  | succ limit ih =>
    intro g f h ⟨safe, fine⟩ ran
    rcases bind_fails.mp ran with failed | ⟨asked, mid, gave, failed⟩
    · exact (harmless_nextPage proper).fails (I := fun _ => True) excuses g f h trivial failed
    · have called := (nextPage_calls p g).change
      rw [gave] at called
      split at failed
      · cases failed
      · next page further =>
        have on : further.Proper := proper_of_nextPage safe proper gave
        rcases bind_fails.mp failed with failed | ⟨ready, last, harvested, failed⟩
        · exact harvestPage_blameless excuses page mid f h
            ⟨safe.of_change called, fine.of_change called⟩ failed
        · have built := harvestPage_change anyCall (fun _ _ => trivial) harvest context page mid
          rw [harvested] at built
          have change := change_lasting.trans called built
          rcases bind_fails.mp failed with failed | ⟨taken, final, took, failed⟩
          · exact (harmless_takeReady ready).fails (I := fun _ => True) excuses last f h trivial failed
          · obtain rfl := (takeReady_looks ready).same took
            split at failed
            · cases failed
            · exact ih on last f h ⟨safe.of_change change, fine.of_change change⟩ failed

private theorem proper_of_seek {harvest : Harvest} {context : Context} {limit : Nat} {p further : Paging}
    {first : Element} {ready : Ready} (safe : g.Safe E) (proper : p.Proper)
    (ran : runIn (seek harvest context limit p) g = (.ok (some (first, further, ready)), h)) :
    further.Proper := by
  induction limit generalizing p g with
  | zero => cases ran
  | succ limit ih =>
    obtain ⟨asked, mid, gave, rest⟩ := bind_gives.mp ran
    have called := (nextPage_calls p g).change
    rw [gave] at called
    split at rest
    · cases rest
    · next page on =>
      have onward : on.Proper := proper_of_nextPage safe proper gave
      obtain ⟨left, last, harvested, rest⟩ := bind_gives.mp rest
      have built := harvestPage_change anyCall (fun _ _ => trivial) harvest context page mid
      rw [harvested] at built
      obtain ⟨taken, final, took, rest⟩ := bind_gives.mp rest
      obtain rfl := (takeReady_looks left).same took
      split at rest
      · cases rest
        exact onward
      · exact ih ((safe.of_change called).of_change built) onward rest

@[simp]
theorem runIn_setProgress (id : EnumerationId) (progress : Progress) (g : Graph) :
    runIn (setProgress id progress) g = (.ok (), g.withProgress id progress) := rfl

/-- To note how far a safe enumeration has come. -/
theorem setProgress_safe {id : EnumerationId} {progress : Progress} (safe : g.Safe E)
    (fine : ∀ e, g.enumerations[id]? = some e → ({ e with progress } : Enumeration).Safe E g) :
    (runIn (setProgress id progress) g).2.Safe E := by
  rw [runIn_setProgress]
  refine ⟨safe.types, safe.resources, safe.clients, safe.expressions, fun other e there => ?_⟩
  change (g.enumerations.modify id _)[other]? = some e at there
  rw [Array.getElem?_modify] at there
  split at there
  · next same =>
    subst same
    obtain ⟨old, was, rfl⟩ := Option.map_eq_some_iff.mp there
    exact (fine old was).of_resources rfl
  · exact (safe.enumerations other e there).of_resources rfl

/-- The enumeration while its next element is looked for: a failure leaves it exhausted. -/
def sought (e : Enumeration) : Enumeration := { e with progress := .exhausted }

private theorem sought_safe {e : Enumeration} (safe : e.Safe E g) : (sought e).Safe E g :=
  ⟨nofun, safe.harvest, nofun⟩

/-- A safe graph with a harvest that is safe for the caller, which it stays when it is changed. -/
def SafeWith (E : Failure → Prop) (harvest : Harvest) (caller : Option ResourceId) (g : Graph) : Prop :=
  g.Safe E ∧ harvest.Safe g caller

theorem SafeWith.of_change {kind : Exchange → Prop} {harvest : Harvest}
    (safe : SafeWith E harvest caller g) (change : Change kind g h) : SafeWith E harvest caller h :=
  ⟨safe.1.of_change change, safe.2.of_change change⟩

/-- What opens a paging: it changes the graph as actions do and gives a paging that can be followed. -/
structure Opens (paging : Act Paging) : Prop where
  change : Keeps (Change anyCall) paging
  proper : ∀ g p h, runIn paging g = (.ok p, h) → p.Proper

theorem begin_safe {id : EnumerationId} {e : Enumeration} (safe : g.Safe E)
    (there : (g.enumerations[id]?).map sought = some (sought e)) :
    (runIn (setProgress id .exhausted) g).2.Safe E ∧
      (runIn (setProgress id .exhausted) g).2.enumerations[id]? = some (sought e) := by
  refine ⟨setProgress_safe safe fun other found => sought_safe (safe.enumerations id other found), ?_⟩
  change (g.enumerations.modify id sought)[id]? = _
  rw [Array.getElem?_modify, if_pos rfl]
  exact there

private theorem advance_blameless (excuses : Excuses E) {id : EnumerationId} {e : Enumeration}
    {paging : Act Paging} (safe : g.Safe E) (there : (g.enumerations[id]?).map sought = some (sought e))
    (opens : Opens paging)
    (fails : ∀ f k, runIn paging (runIn (setProgress id .exhausted) g).2 = (.error f, k) → E f)
    {f : Failure} (ran : runIn (advance id e paging) g = (.error f, h)) : E f := by
  obtain ⟨begun, now⟩ := begin_safe safe there
  rcases bind_fails.mp ran with failed | ⟨_, mid, began, looking⟩
  · cases failed
  have same := congrArg Prod.snd began
  dsimp only at same
  rw [same] at begun now fails
  rcases bind_fails.mp looking with failed | ⟨start, opened, gave, asking⟩
  · exact fails f h failed
  have fine : SafeWith E e.harvest e.context.caller opened := by
    have change := opens.change mid
    rw [gave] at change
    exact SafeWith.of_change ⟨begun, (begun.enumerations id _ now).harvest⟩ change
  rcases bind_fails.mp asking with failed | ⟨c, looked, known, seeking⟩
  · exact (harmless_client _).fails (I := fun _ => True) excuses opened f h trivial failed
  obtain ⟨_, rfl⟩ := client_gives known
  dsimp only at seeking
  rcases bind_fails.mp seeking with failed | ⟨found, last, _, ending⟩
  · exact seek_blameless excuses (opens.proper _ _ _ gave) _ _ _ fine failed
  split at ending
  · cases ending
  · cases ending

private theorem advance_safe {id : EnumerationId} {e : Enumeration} {paging : Act Paging}
    (safe : g.Safe E) (there : (g.enumerations[id]?).map sought = some (sought e))
    (opens : Opens paging) :
    (runIn (advance id e paging) g).2.Safe E := by
  obtain ⟨begun, now⟩ := begin_safe safe there
  unfold advance
  rw [runIn_bind]
  rcases began : runIn (setProgress id .exhausted) g with ⟨_ | _, mid⟩
  · cases began
  rw [began] at begun now
  dsimp only at begun now ⊢
  rw [runIn_bind]
  have opening := opens.change mid
  rcases gave : runIn paging mid with ⟨_ | start, opened⟩
  · rw [gave] at opening
    exact begun.of_change opening
  rw [gave] at opening
  dsimp only at opening ⊢
  rw [runIn_bind, runIn_client]
  cases opened.clients[start.client]? with
  | none => exact begun.of_change opening
  | some c =>
    dsimp only [Option.elim]
    rw [runIn_bind]
    have seeking := seek_change e.harvest e.context (pageLimit start.method c + 2) start opened
    have opening := begun.of_change opening
    rcases found : runIn (seek e.harvest e.context (pageLimit start.method c + 2) start) opened with
      ⟨_ | _ | ⟨first, further, ready⟩, last⟩
    · rw [found] at seeking
      exact opening.of_change seeking
    · rw [found] at seeking
      exact opening.of_change seeking
    · rw [found] at seeking
      have after := opening.of_change seeking
      dsimp only
      rw [runIn_bind, runIn_setProgress]
      refine setProgress_safe after fun other kept => ?_
      have onward := proper_of_seek opening (opens.proper _ _ _ gave) found
      refine ⟨nofun, (after.enumerations id other kept).harvest, fun p ready same => ?_⟩
      cases same
      exact onward

/-! ## The next element -/

private theorem opens_openPaging (request : Request) (context : Context) :
    Opens (openPaging request context) where
  change := openPaging_change anyCall (fun _ _ => trivial) request context
  proper g p h ran := by
    obtain ⟨_, _, _, ran⟩ := bind_gives.mp ran
    obtain ⟨_, _, _, ran⟩ := bind_gives.mp ran
    cases ran
    exact nofun

/-- To open a paging blames no rules where the request reads what the caller has. -/
theorem openPaging_blameless (excuses : Excuses E) {context : Context} {declared : List String}
    {request : Request} (safe : request.Safe E declared) :
    Blameless E context.caller declared (openPaging request context) := by
  refine .seq (buildParams_keeps storing_change data_keeps _ _) ?_ fun params => ?_
  · exact buildParams_blameless excuses data_keeps (data_declared excuses) safe
  · exact (Harmless.seq (harmless_callerOf _) fun caller => .pure _).fails excuses

private theorem opens_pure {p : Paging} (proper : p.Proper) : Opens (pure p) where
  change := .pure change_lasting _
  proper g q h ran := by
    cases ran
    exact proper

private theorem knows_begin {id : EnumerationId} {declared : List String}
    (knows : g.Knows caller declared) :
    (runIn (setProgress id .exhausted) g).2.Knows caller declared := knows

/-- A step of an enumeration of a safe graph blames no rules that are not excused. -/
theorem next_blameless (excuses : Excuses E) (id : EnumerationId) :
    Fails (Safe E) E (next id) := by
  intro g f h safe ran
  unfold next at ran
  rw [runIn_bind, runIn_get] at ran
  dsimp only at ran
  split at ran
  · cases ran
  · next e there =>
    have fine := safe.enumerations id e there
    have here := congrArg (Option.map sought) there
    split at ran
    · cases ran
    · next request untouched =>
      obtain ⟨declared, knows, reads⟩ := fine.request request untouched
      refine advance_blameless excuses safe here (opens_openPaging _ _) (fun f k failed => ?_) ran
      have begun : SafeFor E e.context.caller declared (runIn (setProgress id .exhausted) g).2 :=
        ⟨(begin_safe safe here).1, knows_begin knows⟩
      exact openPaging_blameless excuses reads _ f k begun failed
    · next paging ready under =>
      rcases bind_fails.mp ran with failed | ⟨_, mid, began, taking⟩
      · cases failed
      have same := congrArg Prod.snd began
      dsimp only at same
      obtain ⟨begun, now⟩ := begin_safe safe here
      rw [same] at begun now
      rcases bind_fails.mp taking with failed | ⟨taken, last, took, going⟩
      · exact (harmless_takeReady ready).fails (I := fun _ => True) excuses mid f h trivial failed
      · have looked := takeReady_looks ready mid
        rw [took] at looked
        dsimp only at looked
        subst looked
        split at going
        · cases going
        · have still : (mid.enumerations[id]?).map sought = some (sought e) := by
            rw [now]
            rfl
          refine advance_blameless excuses begun still (opens_pure (fine.paging paging ready under)) ?_
            going
          intro f k failed
          cases failed

/-- A step of an enumeration leaves a safe graph, whatever it gives. -/
theorem next_safe (id : EnumerationId) (safe : g.Safe E) : (runIn (next id) g).2.Safe E := by
  unfold next
  rw [runIn_bind, runIn_get]
  dsimp only
  split
  · exact safe
  · next e there =>
    have fine := safe.enumerations id e there
    have here := congrArg (Option.map sought) there
    split
    · exact safe
    · exact advance_safe safe here (opens_openPaging _ _)
    · next paging ready under =>
      have proper := fine.paging paging ready under
      obtain ⟨begun, now⟩ := begin_safe safe here
      rw [runIn_bind]
      rcases began : runIn (setProgress id .exhausted) g with ⟨_ | _, mid⟩
      · cases began
      rw [began] at begun now
      dsimp only at begun now ⊢
      rw [runIn_bind]
      have looked := takeReady_looks ready mid
      rcases took : runIn (takeReady ready) mid with ⟨_ | _ | ⟨first, left⟩, last⟩
      · rw [took] at looked
        exact looked ▸ begun
      · rw [took] at looked
        dsimp only at looked ⊢
        subst looked
        refine advance_safe begun ?_ (opens_pure proper)
        rw [now]
        rfl
      · rw [took] at looked
        dsimp only at looked ⊢
        subst looked
        rw [runIn_bind, runIn_setProgress]
        refine setProgress_safe begun fun other kept => ?_
        refine ⟨nofun, (begun.enumerations id other kept).harvest, fun p ready same => ?_⟩
        cases same
        exact proper

end Act

end ResourceGraph
