import ResourceGraph.Proofs.PageCourse

/-!
Going through an enumeration of a prepared client, step by step. The elements are those of its
pages, in order; a page is asked for when its first element is wanted, and not before; and once the
pages end or one of them fails, nothing more is given and nothing more is called.
-/

namespace ResourceGraph

open ResourceGraph.Graph Store

namespace PageCourse

variable {g h : Graph} {course rest : PageCourse} {sent : Json} {first : Element} {others : List Element}

private theorem graphAfter_page (sent : Json) (contributed : List Element) (g : Graph)
    (rest : PageCourse) (n : Nat) :
    (page sent contributed g rest).graphAfter g n = rest.graphAfter g (n - contributed.length) := by
  cases n with
  | zero =>
    rw [Nat.zero_sub]
    cases rest <;> rfl
  | succ n => rfl

/-- Once there are no elements left, the pages that are needed are all of them. -/
theorem graphAfter_past (course : PageCourse) (g : Graph) (n : Nat) :
    course.graphAfter g (course.elements.length + 1 + n) =
      course.graphAfter g (course.elements.length + 1) := by
  induction course generalizing g n with
  | finished => rw [Nat.add_right_comm]; rfl
  | failed sent f after => rw [Nat.add_right_comm]; rfl
  | page sent contributed after rest ih =>
    have one : contributed.length + rest.elements.length + 1 + n =
        contributed.length + rest.elements.length + n + 1 := by omega
    have two : contributed.length + rest.elements.length + n + 1 - contributed.length =
        rest.elements.length + 1 + n := by omega
    have three : contributed.length + rest.elements.length + 1 - contributed.length =
        rest.elements.length + 1 := by omega
    simp only [elements, List.length_append]
    rw [one]
    simp only [graphAfter]
    rw [two, three]
    exact ih after n

end PageCourse

namespace Act

variable {g h : Graph} {id : EnumerationId} {harvest : Harvest} {context : Context} {p : Paging}

/-! ## Steps -/

/-- What steps of an enumeration give from a graph, where the pages that they need have a course
from another. -/
structure Steps (id : EnumerationId) (course : PageCourse) (before : Graph) (n : Nat)
    (g : Graph) : Prop where
  answers : (runEach (List.replicate n (next id)) g).1 = (List.range n).map course.answer
  graph : ∃ progress, (runEach (List.replicate n (next id)) g).2 =
    (course.graphAfter before n).withProgress id progress
  past : course.elements.length < n →
    (runEach (List.replicate n (next id)) g).2 = course.graphAfter before n

private theorem runIn_next_exhausted {e : Enumeration} (there : g.enumerations[id]? = some e)
    (ended : e.progress = .exhausted) : runIn (next id) g = (.ok none, g) := by
  unfold next
  rw [runIn_bind, runIn_get]
  dsimp only
  rw [there]
  dsimp only
  rw [ended]
  rfl

/-- An exhausted enumeration gives nothing more. -/
theorem runEach_exhausted {e : Enumeration} (there : g.enumerations[id]? = some e)
    (ended : e.progress = .exhausted) (n : Nat) :
    runEach (List.replicate n (next id)) g = (List.replicate n (.ok none), g) := by
  induction n with
  | zero => rfl
  | succ n ih =>
    rw [List.replicate_succ, runEach, runIn_next_exhausted there ended]
    dsimp only
    rw [ih]
    rfl

/-- One step, and those after it. -/
theorem Steps.cons {course rest : PageCourse} {before after : Graph} {n : Nat}
    {result : Except Failure (Option Element)} (ran : runIn (next id) g = (result, h))
    (steps : Steps id rest after n h) (first : course.answer 0 = result)
    (others : ∀ step, course.answer (step + 1) = rest.answer step)
    (graph : course.graphAfter before (n + 1) = rest.graphAfter after n)
    (past : course.elements.length < n + 1 → rest.elements.length < n) :
    Steps id course before (n + 1) g := by
  obtain ⟨answers, ⟨progress, left⟩, ended⟩ := steps
  refine ⟨?_, ⟨progress, ?_⟩, fun fewer => ?_⟩
  · rw [List.replicate_succ, runEach, ran, List.range_succ_eq_map, List.map_cons, List.map_map, first]
    dsimp only
    rw [answers]
    congr 1
    exact List.map_congr_left fun step _ => (others step).symm
  · rw [List.replicate_succ, runEach, ran, graph]
    exact left
  · rw [List.replicate_succ, runEach, ran, graph]
    exact ended (past fewer)

/-- The enumeration counts as exhausted while its pages are looked for, and a prepared client has
replies for so many of them. -/
structure Stands (id : EnumerationId) (harvest : Harvest) (context : Context) (p : Paging)
    (left : List Reply) (g : Graph) : Prop where
  there : g.enumerations[id]? = some ⟨harvest, context, .exhausted⟩
  prepared : ∃ script, g.clients[p.client]? = some (.prepared script) ∧
    left.length ≤ ((Keyed.get? script.pages p.method).getD []).length

theorem Stands.of_change {left fewer : List Reply} {kind : Exchange → Prop}
    (stands : Stands id harvest context p left g) (change : Change kind g h)
    (no : fewer.length ≤ left.length) : Stands id harvest context p fewer h := by
  obtain ⟨script, prepared, enough⟩ := stands.prepared
  obtain ⟨later, still, pages⟩ := prepared_of_change prepared change
  refine ⟨?_, later, still, ?_⟩
  · rw [change.enumerations]
    exact stands.there
  · rw [pages]
    exact Nat.le_trans no enough

/-- The law of so many steps from the middle of a page. -/
def MidPage (id : EnumerationId) (harvest : Harvest) (context : Context) (n : Nat) : Prop :=
  ∀ (g : Graph) (p : Paging) (left : List Reply) (ready : Ready) (given : List Element) (sent : Json),
    Stands id harvest context p left g → ready.Leaves g.store given →
    Steps id (.page sent given g (PageCourse.read harvest context p left g)) g n
      (g.withProgress id (.under { p with pages := .prepared left } ready))

/-- Once the pages have ended, nothing more is given. -/
theorem Steps.of_ended (harvest : Harvest) (context : Context) {course : PageCourse} {before : Graph}
    {n : Nat} (none : course.elements = [])
    (ran : runIn (next id) g = (course.failure?.elim (.ok .none) .error, course.graphAfter before 1))
    (there : (course.graphAfter before 1).enumerations[id]? = some ⟨harvest, context, .exhausted⟩) :
    Steps id course before (n + 1) g := by
  have past : course.graphAfter before (n + 1) = course.graphAfter before 1 := by
    have later := course.graphAfter_past before n
    rw [none, List.length_nil, Nat.zero_add, Nat.add_comm] at later
    exact later
  have left : (runEach (List.replicate (n + 1) (next id)) g).2 = course.graphAfter before (n + 1) := by
    rw [List.replicate_succ, runEach, ran, past]
    dsimp only
    rw [runEach_exhausted there rfl]
  refine ⟨?_, ⟨.exhausted, ?_⟩, fun _ => left⟩
  · rw [List.replicate_succ, runEach, ran, List.range_succ_eq_map, List.map_cons, List.map_map]
    dsimp only
    rw [runEach_exhausted there rfl]
    unfold PageCourse.answer
    rw [none]
    congr 1
    refine (List.eq_replicate_iff.mpr ⟨by simp, fun answer member => ?_⟩).symm
    obtain ⟨step, _, rfl⟩ := List.mem_map.mp member
    rfl
  · rw [left, past, withProgress_self (e := ⟨harvest, context, .exhausted⟩) there]

/-! ## Looking for the next page -/

private theorem runIn_advance {e : Enumeration} {paging : Act Paging} {start : Paging} {mid : Graph}
    {script : Script} (opened : runIn paging (g.withProgress id .exhausted) = (.ok start, mid))
    (prepared : mid.clients[start.client]? = some (.prepared script)) :
    runIn (advance id e paging) g =
      match runIn (seek e.harvest e.context
        (((Keyed.get? script.pages start.method).getD []).length + 2) start) mid with
      | (.ok (some (first, further, ready)), h) =>
        (.ok (some first), h.withProgress id (.under further ready))
      | (.ok none, h) => (.ok none, h)
      | (.error f, h) => (.error f, h) := by
  have found : runIn (client start.client) mid = (.ok (.prepared script), mid) := client_runs prepared
  unfold advance
  rw [runIn_bind_ok (runIn_setProgress _ _ _), runIn_bind_ok opened, runIn_bind_ok found, runIn_bind]
  dsimp only [pageLimit]
  rcases runIn (seek e.harvest e.context _ start) mid with ⟨_ | _ | ⟨first, further, ready⟩, h⟩ <;> rfl

/-- The steps after a page has ended, or before any was asked for. -/
theorem Steps.of_advance {e : Enumeration} {paging : Act Paging} {start : Paging} {mid : Graph}
    {left : List Reply} {n : Nat} (midPage : MidPage id e.harvest e.context n)
    (ran : runIn (next id) g = runIn (advance id e paging) h)
    (opened : runIn paging (h.withProgress id .exhausted) = (.ok start, mid))
    (stands : Stands id e.harvest e.context start left mid)
    (offers : ∀ script, mid.clients[start.client]? = some (.prepared script) →
      Offers start left script) :
    Steps id (PageCourse.read e.harvest e.context start left mid) mid (n + 1) g := by
  obtain ⟨script, prepared, enough⟩ := stands.prepared
  rw [runIn_advance opened prepared] at ran
  have limit : left.length < ((Keyed.get? script.pages start.method).getD []).length + 2 := by omega
  have change := seek_change e.harvest e.context
    (((Keyed.get? script.pages start.method).getD []).length + 2) start mid
  rcases seeks_of_seek e.harvest e.context prepared (offers script prepared) limit with
    ⟨none, sought⟩ | ⟨first, others, ready, later, after, sought, fewer, leaves, begins⟩
  · rw [sought] at ran change
    refine .of_ended e.harvest e.context none (ran.trans ?_)
      (stands.of_change change (Nat.le_refl _)).there
    cases (PageCourse.read e.harvest e.context start left mid).failure? <;> rfl
  · rw [sought] at ran change
    have still := stands.of_change change fewer
    refine .cons ran (midPage after start later ready others .null still leaves) ?_ ?_ ?_ ?_
    · unfold PageCourse.answer
      rw [begins.elements]
      rfl
    · intro step
      unfold PageCourse.answer
      rw [begins.elements, begins.failure]
      rfl
    · rw [begins.graphAfter, PageCourse.graphAfter_page]
    · rw [begins.elements]
      exact Nat.lt_of_succ_lt_succ

theorem runIn_next_under {e : Enumeration} (there : g.enumerations[id]? = some e)
    (ended : e.progress = .exhausted) (paging : Paging) (ready : Ready) :
    runIn (next id) (g.withProgress id (.under paging ready)) =
      match runIn (takeReady ready) g with
      | (.ok (some (first, left)), h) => (.ok (some first), h.withProgress id (.under paging left))
      | (.ok none, h) => runIn (advance id { e with progress := .under paging ready } (return paging)) h
      | (.error f, h) => (.error f, h) := by
  have same : g.enumerations[id]? = some { e with progress := .exhausted } := by rw [there, ← ended]
  have again := withProgress_withProgress g id (.under paging ready) .exhausted
  rw [withProgress_self same] at again
  have begun : runIn (setProgress id .exhausted) (g.withProgress id (.under paging ready)) =
      (.ok (), g) := by
    rw [runIn_setProgress, again]
  unfold next
  rw [runIn_bind, runIn_get]
  dsimp only
  rw [there_withProgress there]
  dsimp only
  rw [runIn_bind_ok begun, runIn_bind]
  rcases runIn (takeReady ready) g with ⟨_ | _ | ⟨first, left⟩, h⟩ <;> rfl

/-- From the middle of a page on, the enumeration follows the course of its pages. -/
theorem midPage (id : EnumerationId) (harvest : Harvest) (context : Context) (n : Nat) :
    MidPage id harvest context n := by
  induction n with
  | zero =>
    intro g p left ready given sent stands leaves
    exact ⟨rfl, ⟨_, rfl⟩, nofun⟩
  | succ n ih =>
    intro g p left ready given sent stands leaves
    have stepped := runIn_next_under stands.there rfl { p with pages := .prepared left } ready
    cases given with
    | nil =>
      rw [takeReady_empty leaves] at stepped
      have opened : runIn (return { p with pages := .prepared left } : Act Paging)
          (g.withProgress id .exhausted) = (.ok { p with pages := .prepared left }, g) := by
        rw [withProgress_self (e := ⟨harvest, context, .exhausted⟩) stands.there]
        rfl
      have steps := Steps.of_advance ih stepped opened ⟨stands.there, stands.prepared⟩
        fun _ _ => .inl rfl
      rw [read_pages harvest context p (.prepared left)] at steps
      exact ⟨steps.answers, steps.graph, steps.past⟩
    | cons first others =>
      obtain ⟨remaining, took, remain⟩ := takeReady_some leaves
      rw [took] at stepped
      refine .cons stepped (ih g p left remaining others sent stands remain) rfl (fun _ => rfl) ?_ ?_
      · rw [PageCourse.graphAfter_page, PageCourse.graphAfter_page, List.length_cons,
          Nat.add_sub_add_right]
      · simp only [PageCourse.elements, List.length_append, List.length_cons]
        omega

end Act

/-! ## The pages that are asked for -/

/-- The calls for pages that were made, in order. -/
def Graph.pagesAsked (g : Graph) : List Exchange := g.exchanges.toList.filter Exchange.asksPage

namespace Graph

variable {g h : Graph}

private theorem pagesAsked_of_change (change : Change Exchange.Single g h) :
    h.pagesAsked = g.pagesAsked := by
  obtain ⟨more, record, single⟩ := change.exchanges
  have none : more.filter Exchange.asksPage = [] :=
    List.filter_eq_nil_iff.mpr fun x member => by
      rw [single x member]
      exact Bool.false_ne_true
  unfold pagesAsked
  rw [record, List.filter_append, none, List.append_nil]

private theorem pagesAsked_noted (p : Paging) (sent : Json) (g : Graph) :
    (p.noted sent g).pagesAsked = g.pagesAsked ++ [.page p.client p.method sent] := by
  unfold pagesAsked Paging.noted
  simp [Exchange.asksPage]

end Graph

/-- After so many steps the pages that were asked for are those that the steps need, one after
another. -/
theorem PageCourse.pagesAsked_graphAfter (harvest : Harvest) (context : Context) (p : Paging)
    (left : List Reply) (g : Graph) (steps : Nat) :
    ((read harvest context p left g).graphAfter g steps).pagesAsked =
      g.pagesAsked ++ ((read harvest context p left g).asked steps).map (.page p.client p.method) := by
  induction left generalizing g steps with
  | nil => cases steps <;> simp [read, graphAfter, asked]
  | cons reply left ih =>
    rw [Act.read_cons]
    cases steps with
    | zero => simp [graphAfter, asked]
    | succ steps =>
      cases g.store.shownTree? p.params with
      | none => simp [graphAfter, asked]
      | some sent =>
        have reading := Act.readPage_change (fun _ single => single) harvest context p.params reply
          (p.noted sent g)
        dsimp only
        rcases ran : runIn (Act.readPage harvest context p.params reply) (p.noted sent g) with
          ⟨f | contributed, h⟩ <;> rw [ran] at reading
        · dsimp only [graphAfter, asked]
          rw [pagesAsked_of_change reading, pagesAsked_noted]
          simp
        · dsimp only [graphAfter, asked]
          rw [ih, pagesAsked_of_change reading, pagesAsked_noted]
          simp

/-! ## From the start -/

/-- What an operation that is gone through asks for and takes from each page. -/
def Operation.enumerates? (o : Operation) : Option (Request × Harvest) :=
  match o.work with
  | .enumerateData request path => some (request, .values path)
  | .enumerateResource request builder => some (request, .resources builder)
  | _ => none

/-- The graph when the parameters of an enumeration are built and no page is asked for. -/
def Graph.opened (g : Graph) (id : EnumerationId) (request : Request) (context : Context) : Graph :=
  (runIn (Act.openPaging request context) (g.withProgress id .exhausted)).2

/-- The course of an enumeration whose client has these pages. -/
def Graph.course (g : Graph) (id : EnumerationId) (harvest : Harvest) (request : Request)
    (context : Context) (replies : List Reply) : PageCourse :=
  match runIn (Act.openPaging request context) (g.withProgress id .exhausted) with
  | (.error f, h) => .failed none f h
  | (.ok p, h) => .read harvest context p replies h

namespace Act

variable {g h : Graph} {id : EnumerationId} {harvest : Harvest} {context : Context} {request : Request}
  {caller : ResourceId} {r : Resource} {script : Script}

/-- To invoke an operation that is gone through calls nothing. -/
theorem runIn_invoke_enumerates {o : Operation} (enumerates : o.enumerates? = some (request, harvest))
    (context : Context) (g : Graph) :
    runIn (invoke o context) g = (.ok (.enumeration g.enumerations.size),
      { g with enumerations := g.enumerations.push ⟨harvest, context, .untouched request⟩ }) := by
  unfold Operation.enumerates? at enumerates
  unfold invoke
  split at enumerates
  · next work =>
    cases enumerates
    rw [work]
    rfl
  · next work =>
    cases enumerates
    rw [work]
    rfl
  · cases enumerates

/-- A paging is opened on the client of the caller, for the method of the request. -/
theorem of_openPaging {p : Paging} (called : context.caller = some caller)
    (there : g.resources[caller]? = some r) (ran : runIn (openPaging request context) g = (.ok p, h)) :
    p.client = r.client ∧ p.method = request.method ∧ p.pages = .unasked := by
  obtain ⟨params, mid, built, rest⟩ := bind_gives.mp ran
  obtain ⟨s, last, found, ending⟩ := bind_gives.mp rest
  have building : Keeps (Change anyCall) (buildParams data request context) :=
    buildParams_keeps storing_change data_keeps request context
  have change := building g
  rw [built] at change
  obtain ⟨later, still, remains⟩ := change.resources caller r there
  unfold callerOf at found
  rw [called] at found
  obtain ⟨same, rfl⟩ := resource_gives found
  cases still.symm.trans same
  cases ending
  exact ⟨remains.client, rfl, rfl⟩

/-- The pages that the steps of an enumeration need are those of its course, from the graph in which
they begin to be asked for. -/
theorem pagesAsked_course (called : context.caller = some caller)
    (resourced : g.resources[caller]? = some r) (replies : List Reply) (steps : Nat) :
    ((g.course id harvest request context replies).graphAfter (g.opened id request context)
      (steps + 1)).pagesAsked = g.pagesAsked ++
        ((g.course id harvest request context replies).asked (steps + 1)).map
          (.page r.client request.method) := by
  have opening :=
    openPaging_change Exchange.Single (fun _ single => single) request context
      (g.withProgress id .exhausted)
  unfold Graph.course Graph.opened
  rcases ran : runIn (openPaging request context) (g.withProgress id .exhausted) with ⟨f | p, h⟩ <;>
    rw [ran] at opening
  · dsimp only [PageCourse.graphAfter, PageCourse.asked]
    rw [pagesAsked_of_change opening]
    exact (List.append_nil _).symm
  · obtain ⟨client, method, _⟩ := of_openPaging (g := g.withProgress id .exhausted) called resourced ran
    dsimp only
    rw [PageCourse.pagesAsked_graphAfter, pagesAsked_of_change opening, client, method]
    rfl

theorem runIn_next_untouched {e : Enumeration} (there : g.enumerations[id]? = some e)
    (untouched : e.progress = .untouched request) :
    runIn (next id) g = runIn (advance id e (openPaging request e.context)) g := by
  unfold next
  rw [runIn_bind, runIn_get]
  dsimp only
  rw [there]
  dsimp only
  rw [untouched]

/-- From its start the enumeration follows the course of its pages. -/
theorem steps_of_untouched
    (there : g.enumerations[id]? = some ⟨harvest, context, .untouched request⟩)
    (called : context.caller = some caller) (resourced : g.resources[caller]? = some r)
    (prepared : g.clients[r.client]? = some (.prepared script)) (n : Nat) :
    Steps id (g.course id harvest request context ((Keyed.get? script.pages request.method).getD []))
      (g.opened id request context) (n + 1) g := by
  have stepped := runIn_next_untouched there rfl
  have opening :=
    openPaging_change Exchange.Single (fun _ single => single) request context
      (g.withProgress id .exhausted)
  have begun := there_withProgress there .exhausted
  unfold Graph.course Graph.opened
  rcases ran : runIn (openPaging request context) (g.withProgress id .exhausted) with ⟨f | p, h⟩
  · rw [ran] at opening
    have failed : runIn (next id) g = (.error f, h) := by
      rw [stepped]
      unfold advance
      rw [runIn_bind_ok (runIn_setProgress _ _ _), runIn_bind_error ran]
    refine .of_ended harvest context rfl failed ?_
    change h.enumerations[id]? = _
    rw [opening.enumerations]
    exact begun
  · rw [ran] at opening
    obtain ⟨client, method, unasked⟩ :=
      of_openPaging (g := g.withProgress id .exhausted) called resourced ran
    obtain ⟨later, still, pages⟩ :=
      prepared_of_change (g := g.withProgress id .exhausted) prepared opening
    refine .of_advance (e := ⟨harvest, context, .untouched request⟩)
      (midPage id harvest context n) stepped
      ran ⟨?_, later, ?_, ?_⟩ fun other known => .inr ⟨unasked, ?_⟩
    · rw [opening.enumerations]
      exact begun
    · rw [client]
      exact still
    · exact Nat.le_of_eq (by rw [pages, method])
    · rw [client, still] at known
      cases known
      rw [pages, method]

end Act

/-- **An enumeration gives the elements of its pages in order, and asks for a page only when it is
needed.** Begun, it calls nothing. Then its steps give what its pages contribute one after another,
until they end or one of them fails; the pages that were asked for are those up to the one with the
last element, each once; and the steps that follow change nothing more. -/
theorem Operation.enumeration_lawful {o : Operation} {request : Request} {harvest : Harvest}
    (enumerates : o.enumerates? = some (request, harvest)) :
    (∀ g context, runIn (Act.invoke o context) g = (.ok (.enumeration g.enumerations.size),
      { g with enumerations := g.enumerations.push ⟨harvest, context, .untouched request⟩ })) ∧
    ∀ (g : Graph) id context caller r script,
      g.enumerations[id]? = some ⟨harvest, context, .untouched request⟩ →
      context.caller = some caller → g.resources[caller]? = some r →
      g.clients[r.client]? = some (.prepared script) → ∀ k,
        let course := g.course id harvest request context
          ((Keyed.get? script.pages request.method).getD [])
        let taken := runEach (List.replicate k (Act.next id)) g
        taken.1 = (List.range k).map course.answer ∧
          taken.2.pagesAsked = g.pagesAsked ++ (course.asked k).map (.page r.client request.method) ∧
          (0 < k → ∃ progress, taken.2 =
            (course.graphAfter (g.opened id request context) k).withProgress id progress) ∧
          (course.elements.length < k → taken.2 =
            course.graphAfter (g.opened id request context) (course.elements.length + 1)) := by
  refine ⟨fun g context => Act.runIn_invoke_enumerates enumerates context g, ?_⟩
  intro g id context caller r script there called resourced prepared k
  cases k with
  | zero =>
    refine ⟨rfl, ?_, nofun, nofun⟩
    cases g.course id harvest request context ((Keyed.get? script.pages request.method).getD []) <;>
      exact (List.append_nil _).symm
  | succ k =>
    obtain ⟨answers, ⟨progress, left⟩, past⟩ := Act.steps_of_untouched there called resourced prepared k
    refine ⟨answers, ?_, fun _ => ⟨progress, left⟩, fun fewer => ?_⟩
    · rw [left]
      exact Act.pagesAsked_course called resourced _ k
    · obtain ⟨n, further⟩ := Nat.exists_eq_add_of_le (Nat.succ_le_of_lt fewer)
      refine (past fewer).trans ?_
      rw [further]
      exact PageCourse.graphAfter_past _ _ n

/-- The items of a list, page by page. -/
def Operation.listing : Operation := ⟨.enumerateData ⟨"List", []⟩ "Items", {}⟩

/-- A list whose items are gone through: three pages, one of them without items, and a call that
fails. -/
def Graph.listed : Graph where
  types := #[{ name := "List" }]
  clients := #[.prepared { pages := [("List", [
    ⟨.data (.object [("Items", .list [.str "a", .str "b"])]), none⟩,
    ⟨.data (.object [("Items", .null)]), none⟩,
    ⟨.data (.object [("Items", .list [.str "c"])]), none⟩,
    ⟨.failure "lost", none⟩])] }]
  resources := #[{ type := ⟨0, "List"⟩, identifiers := [], client := 0 }]
  enumerations := #[⟨.values "Items", { caller := some 0 }, .untouched ⟨"List", []⟩⟩]

/-- For two items one page is asked for, and for the third two more; then the call fails, and
nothing follows. -/
theorem Operation.enumeration_lawful_listed :
    (runEach (List.replicate 2 (Act.next 0)) listed).2.pagesAsked.length = 1 ∧
      (runEach (List.replicate 3 (Act.next 0)) listed).2.pagesAsked.length = 3 ∧
      (runEach (List.replicate 6 (Act.next 0)) listed).1 =
        [.ok (some (.value (.str "a"))), .ok (some (.value (.str "b"))), .ok (some (.value (.str "c"))),
          .error (.foreign "lost"), .ok none, .ok none] ∧
      (runEach (List.replicate 6 (Act.next 0)) listed).2.pagesAsked.length = 4 := by
  have lawful := (enumeration_lawful (o := listing) rfl).2 listed 0 _ 0 _ _ rfl rfl rfl rfl
  obtain ⟨_, two, _⟩ := lawful 2
  obtain ⟨_, three, _⟩ := lawful 3
  obtain ⟨answers, six, _⟩ := lawful 6
  rw [two, three, answers, six]
  refine ⟨?_, ?_, ?_, ?_⟩ <;> cbv

end ResourceGraph
