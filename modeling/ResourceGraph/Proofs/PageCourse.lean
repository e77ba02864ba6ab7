import ResourceGraph.Proofs.Paging

/-!
The course of an enumeration: what its pages contribute one after another if all of them are asked
for at once, with the graph after each, and the failure that ends them if there is one. Going
through the enumeration element by element comes to the same, page for page; to look for the next
element skips the pages without any.
-/

namespace ResourceGraph

open ResourceGraph.Graph Store

/-- The pages of an enumeration one after another. -/
inductive PageCourse
  /-- There is no page left. -/
  | finished
  /-- The next page fails, or what is needed to ask for it. It is with the tree that it was asked
  for with, if it was asked for. -/
  | failed (sent : Option Json) (f : Failure) (after : Graph)
  /-- The next page, with the tree that it was asked for with, contributes elements. -/
  | page (sent : Json) (elements : List Element) (after : Graph) (rest : PageCourse)

namespace PageCourse

/-- The elements of all pages. -/
def elements : PageCourse → List Element
  | finished | failed _ _ _ => []
  | page _ contributed _ rest => contributed ++ rest.elements

/-- The failure that ends the pages. -/
def failure? : PageCourse → Option Failure
  | finished => none
  | failed _ f _ => some f
  | page _ _ _ rest => rest.failure?

/-- What the steps give, counted from none: the elements, then the failure if there is one, then
nothing. -/
def answerOf (failure : Option Failure) : List Element → Nat → Except Failure (Option Element)
  | [], 0 => failure.elim (.ok none) .error
  | [], _ + 1 => .ok none
  | first :: _, 0 => .ok (some first)
  | _ :: rest, step + 1 => answerOf failure rest step

/-- What a step of the enumeration gives. -/
def answer (course : PageCourse) : Nat → Except Failure (Option Element) :=
  answerOf course.failure? course.elements

/-- What the pages were asked for with that are needed for so many steps: those up to the one with
the last element that is given, and all of them where there are fewer elements than steps. -/
def asked : PageCourse → Nat → List Json
  | _, 0 => []
  | finished, _ + 1 => []
  | failed sent _ _, _ + 1 => sent.toList
  | page sent contributed _ rest, steps + 1 => sent :: rest.asked (steps + 1 - contributed.length)

/-- The graph after the pages that are needed for so many steps, from the one before all of them. -/
def graphAfter (before : Graph) : PageCourse → Nat → Graph
  | _, 0 => before
  | finished, _ + 1 => before
  | failed _ _ after, _ + 1 => after
  | page _ contributed after rest, steps + 1 => rest.graphAfter after (steps + 1 - contributed.length)

end PageCourse

namespace Act

/-- The elements that a value contributes: what it can be gone through by, and nothing if it is
empty. -/
def valueContribution (v : Datum) : Act (List Element) := do
  if (← opened v).isEmpty then return [] else return (← parts v).map .value

/-- The elements that a page contributes: those of the value at the path, or the resources that are
built. -/
def contribution (harvest : Harvest) (context : Context) (page : Response) : Act (List Element) := do
  match harvest with
  | .values path => valueContribution (← search path page.data)
  | .resources builder =>
    match ← build builder { context with response := some page } with
    | .several _ members => return members.map .resource
    | .one _ => misuse .notIterable
  | .responses => return [.response page]

/-- Answers a call for a page and takes what the page contributes. -/
def readPage (harvest : Harvest) (context : Context) (params : Datum) (reply : Reply) :
    Act (List Element) := do
  contribution harvest context (← respond (some reply) params)

end Act

/-- The graph in which the call for a page is noted. -/
def Paging.noted (p : Paging) (sent : Json) (g : Graph) : Graph :=
  { g with exchanges := g.exchanges.push (.page p.client p.method sent) }

/-- The course of the pages that a prepared client has, from a graph. -/
def PageCourse.read (harvest : Harvest) (context : Context) (p : Paging) :
    List Reply → Graph → PageCourse
  | [], _ => .finished
  | reply :: left, g =>
    match g.store.shownTree? p.params with
    | none => .failed none (.misuse .endless) g
    | some sent =>
      match runIn (Act.readPage harvest context p.params reply) (p.noted sent g) with
      | (.error f, h) => .failed (some sent) f h
      | (.ok contributed, h) => .page sent contributed h (read harvest context p left h)

/-- How many members the object at a place has. -/
def Store.sizeAt (s : Store) (object : Share) : Nat :=
  match s.opened (.shared object) with
  | .object fields => fields.length
  | .table entries => entries.length
  | _ => 0

/-- What is ready leaves so many elements in a store, as long as that is not changed. -/
def Ready.Leaves (s : Store) : Ready → List Element → Prop
  | .elements left, given => given = left
  | .listFrom list place, given =>
    ∃ items, s.opened (.shared list) = .list items ∧ given = (items.drop place).map .value
  | .keysOf object size left, given => s.sizeAt object = size ∧ given = left.map .value

namespace Act

variable {g h : Graph}

private theorem runIn_sizeOf (object : Share) (g : Graph) :
    runIn (sizeOf object) g = (.ok (g.store.sizeAt object), g) := by
  unfold sizeOf Store.sizeAt
  rw [runIn_bind_ok (runIn_opened _ _)]
  cases g.store.opened (.shared object) <;> rfl

/-- Where nothing is left, nothing is taken. -/
theorem takeReady_empty {ready : Ready} (leaves : ready.Leaves g.store []) :
    runIn (takeReady ready) g = (.ok none, g) := by
  cases ready with
  | elements left =>
    cases leaves
    rfl
  | listFrom list place =>
    obtain ⟨items, content, none⟩ := leaves
    have past : items.length ≤ place := List.drop_eq_nil_iff.mp (List.map_eq_nil_iff.mp none.symm)
    unfold takeReady
    rw [runIn_bind_ok (runIn_opened _ _), content]
    dsimp only
    rw [List.getElem?_eq_none past]
    rfl
  | keysOf object size left =>
    obtain ⟨same, none⟩ := leaves
    obtain rfl : left = [] := List.map_eq_nil_iff.mp none.symm
    unfold takeReady
    rw [runIn_bind_ok (runIn_sizeOf _ _), same]
    simp

/-- Else the first of what is left is taken, and the others are left. -/
theorem takeReady_some {ready : Ready} {first : Element} {others : List Element}
    (leaves : ready.Leaves g.store (first :: others)) :
    ∃ left, runIn (takeReady ready) g = (.ok (some (first, left)), g) ∧ left.Leaves g.store others := by
  cases ready with
  | elements left =>
    cases leaves
    exact ⟨.elements others, rfl, rfl⟩
  | listFrom list place =>
    obtain ⟨items, content, given⟩ := leaves
    have inside : place < items.length := by
      refine Nat.lt_of_not_le fun past => ?_
      rw [List.drop_eq_nil_of_le past] at given
      cases given
    rw [List.drop_eq_getElem_cons inside, List.map_cons] at given
    obtain ⟨rfl, rfl⟩ := List.cons.inj given
    refine ⟨.listFrom list (place + 1), ?_, items, content, rfl⟩
    unfold takeReady
    rw [runIn_bind_ok (runIn_opened _ _), content]
    dsimp only
    rw [List.getElem?_eq_getElem inside]
    rfl
  | keysOf object size left =>
    obtain ⟨same, given⟩ := leaves
    cases left with
    | nil => cases given
    | cons key rest =>
      rw [List.map_cons] at given
      obtain ⟨rfl, rfl⟩ := List.cons.inj given
      refine ⟨.keysOf object size rest, ?_, same, rfl⟩
      unfold takeReady
      rw [runIn_bind_ok (runIn_sizeOf _ _), same]
      simp

/-! ## What a page leaves to be taken -/

/-- The first action leaves the elements to be taken that the second one gives, and otherwise they
are the same. -/
def Readies (x : Act Ready) (y : Act (List Element)) : Prop :=
  ∀ g, (∃ f h, runIn x g = (.error f, h) ∧ runIn y g = (.error f, h)) ∨
    ∃ ready given h, runIn x g = (.ok ready, h) ∧ runIn y g = (.ok given, h) ∧ ready.Leaves h.store given

theorem Readies.bind {α : Type} {first : Act α} {x : α → Act Ready} {y : α → Act (List Element)}
    (rest : ∀ a, Readies (x a) (y a)) : Readies (first >>= x) (first >>= y) := by
  intro g
  rcases ran : runIn first g with ⟨f | a, mid⟩
  · exact .inl ⟨f, mid, runIn_bind_error ran, runIn_bind_error ran⟩
  · rw [runIn_bind_ok ran, runIn_bind_ok ran]
    exact rest a mid

theorem Readies.pure {ready : Ready} {given : List Element}
    (leaves : ∀ s : Store, ready.Leaves s given) : Readies (Pure.pure ready) (Pure.pure given) :=
  fun g => .inr ⟨ready, given, g, rfl, rfl, leaves g.store⟩

private theorem runIn_parts_list {v : Datum} {items : List Datum}
    (content : g.store.opened v = .list items) :
    runIn (parts v) g = (.ok items, g) := by
  unfold parts
  rw [runIn_bind_ok (runIn_opened _ _), content]
  rfl

/-- Going through a datum from its start gives what it can be gone through by. -/
theorem readies_walk (v : Datum) :
    Readies (walk v) (do return (← parts v).map .value) := by
  intro g
  unfold walk
  have looked := parts_looks v g
  rcases ran : runIn (parts v) g with ⟨f | all, mid⟩
  · exact .inl ⟨f, mid, runIn_bind_error ran, runIn_bind_error ran⟩
  · rw [ran] at looked
    dsimp only at looked
    subst looked
    rw [runIn_bind_ok ran, runIn_bind_ok ran, runIn_bind_ok (runIn_opened _ _)]
    refine .inr ?_
    split
    · next list items content =>
      refine ⟨_, _, _, rfl, rfl, items, content, ?_⟩
      rw [runIn_parts_list content] at ran
      cases ran
      rfl
    · next object fields content =>
      refine ⟨_, _, _, rfl, rfl, ?_, rfl⟩
      unfold Store.sizeAt
      rw [content]
    · next object entries content =>
      refine ⟨_, _, _, rfl, rfl, ?_, rfl⟩
      unfold Store.sizeAt
      rw [content]
    · exact ⟨_, _, _, rfl, rfl, rfl⟩

private theorem readies_valueElements (v : Datum) : Readies (valueElements v) (valueContribution v) := by
  refine .bind fun content => ?_
  split
  · exact .pure fun _ => rfl
  · exact readies_walk v

/-- Harvesting a page leaves to be taken what the page contributes. -/
theorem readies_harvestPage (harvest : Harvest) (context : Context) (page : Response) :
    Readies (harvestPage harvest context page) (contribution harvest context page) := by
  cases harvest with
  | values path => exact .bind fun v => readies_valueElements v
  | resources b =>
    refine .bind fun built => ?_
    cases built with
    | one id => exact fun g => .inl ⟨_, g, rfl, rfl⟩
    | several serial members => exact .pure fun _ => rfl
  | responses => exact .pure fun _ => rfl

private theorem contribution_change {kind : Exchange → Prop} (single : ∀ x : Exchange, x.Single → kind x)
    (harvest : Harvest) (context : Context) (page : Response) :
    Keeps (Change kind) (contribution harvest context page) := by
  intro g
  have harvesting := harvestPage_change kind single harvest context page g
  rcases readies_harvestPage harvest context page g with
    ⟨f, h, harvested, given⟩ | ⟨ready, given, h, harvested, gave, _⟩
  · rw [harvested] at harvesting
    rw [given]
    exact harvesting
  · rw [harvested] at harvesting
    rw [gave]
    exact harvesting

theorem readPage_change {kind : Exchange → Prop} (single : ∀ x : Exchange, x.Single → kind x)
    (harvest : Harvest) (context : Context) (params : Datum) (reply : Reply) :
    Keeps (Change kind) (readPage harvest context params reply) :=
  .bind change_lasting (respond_keeps storing_change.taking _ _) fun page =>
    contribution_change single harvest context page

/-! ## Asking a prepared client for pages -/

/-- The client has these replies left for the pages of a call. -/
def Offers (p : Paging) (left : List Reply) (script : Script) : Prop :=
  p.pages = .prepared left ∨ p.pages = .unasked ∧ left = (Keyed.get? script.pages p.method).getD []

private theorem runIn_nextPage {p : Paging} {left : List Reply} {script : Script}
    (prepared : g.clients[p.client]? = some (.prepared script)) (offers : Offers p left script) :
    runIn (nextPage p) g = runIn (preparedPage p left) g := by
  have found : runIn (client p.client) g = (.ok (.prepared script), g) := client_runs prepared
  unfold nextPage
  rw [runIn_bind_ok found]
  rcases offers with pages | ⟨pages, rfl⟩ <;> rw [pages]

/-- The next page is asked for and answered, unless what is sent spells no tree. -/
theorem runIn_preparedPage (p : Paging) (reply : Reply) (left : List Reply) (g : Graph) :
    runIn (preparedPage p (reply :: left)) g =
      match g.store.shownTree? p.params with
      | none => (.error (.misuse .endless), g)
      | some sent => runIn (do
          let page ← respond (some reply) p.params
          return some (page, { p with pages := .prepared left })) (p.noted sent g) := by
  unfold preparedPage
  rw [runIn_bind, runIn_tree]
  cases g.store.shownTree? p.params with
  | none => rfl
  | some sent =>
    dsimp only [Option.elim]
    rw [runIn_bind_ok (runIn_note _ _)]
    rfl

theorem read_cons (harvest : Harvest) (context : Context) (p : Paging) (reply : Reply)
    (left : List Reply) (g : Graph) :
    PageCourse.read harvest context p (reply :: left) g =
      match g.store.shownTree? p.params with
      | none => .failed none (.misuse .endless) g
      | some sent =>
        match runIn (readPage harvest context p.params reply) (p.noted sent g) with
        | (.error f, h) => .failed (some sent) f h
        | (.ok contributed, h) =>
          .page sent contributed h (PageCourse.read harvest context p left h) := rfl

/-- The course depends on the call alone, and not on how far it has come. -/
theorem read_pages (harvest : Harvest) (context : Context) (p : Paging) (pages : Pages)
    (left : List Reply) (g : Graph) :
    PageCourse.read harvest context { p with pages } left g =
      PageCourse.read harvest context p left g := by
  induction left generalizing g with
  | nil => rfl
  | cons reply left ih =>
    rw [read_cons, read_cons]
    cases g.store.shownTree? p.params with
    | none => rfl
    | some sent =>
      change (match runIn (readPage harvest context p.params reply) (p.noted sent g) with
        | (.error f, h) => PageCourse.failed (some sent) f h
        | (.ok contributed, h) => .page sent contributed h
          (PageCourse.read harvest context { p with pages } left h)) = _
      dsimp only
      rcases runIn (readPage harvest context p.params reply) (p.noted sent g) with ⟨f | contributed, h⟩
      · rfl
      · exact congrArg (PageCourse.page sent contributed h) (ih h)

/-! ## Looking for the next element -/

/-- The course begins with elements of one page, the first of them given; the rest is another
course. -/
structure Begins (course : PageCourse) (g : Graph) (first : Element) (others : List Element) (h : Graph)
    (rest : PageCourse) : Prop where
  elements : course.elements = first :: (others ++ rest.elements)
  failure : course.failure? = rest.failure?
  graphAfter : ∀ n, course.graphAfter g (n + 1) = rest.graphAfter h (n - others.length)

/-- What looking for the next element on further pages comes to: the end of the course, where no
page has any element, or the first element of the course. -/
def Seeks (harvest : Harvest) (context : Context) (p : Paging) (left : List Reply) (g : Graph)
    (sought : Except Failure (Option (Element × Paging × Ready)) × Graph) : Prop :=
  let course := PageCourse.read harvest context p left g
  (course.elements = [] ∧
      sought = (course.failure?.elim (.ok none) .error, course.graphAfter g 1)) ∨
    ∃ first others ready later h,
      sought = (.ok (some (first, { p with pages := .prepared later }, ready)), h) ∧
      later.length ≤ left.length ∧ ready.Leaves h.store others ∧
      Begins course g first others h (PageCourse.read harvest context p later h)

/-- To pass over a page without elements comes to what the pages after it come to. -/
theorem Seeks.pass {harvest : Harvest} {context : Context} {p : Paging} {reply : Reply}
    {left : List Reply} {sent : Json}
    {sought : Except Failure (Option (Element × Paging × Ready)) × Graph}
    (empty : PageCourse.read harvest context p (reply :: left) g =
      .page sent [] h (PageCourse.read harvest context p left h))
    (seeks : Seeks harvest context { p with pages := .prepared left } left h sought) :
    Seeks harvest context p (reply :: left) g sought := by
  unfold Seeks at seeks ⊢
  rw [empty]
  rw [read_pages] at seeks
  rcases seeks with ⟨none, ended⟩ | ⟨first, others, ready, later, last, found, fewer, leaves, begins⟩
  · exact .inl ⟨none, ended⟩
  · rw [read_pages harvest context p (.prepared left) later last] at begins
    refine .inr ⟨first, others, ready, later, last, found, ?_, leaves, ?_⟩
    · exact Nat.le_succ_of_le fewer
    · exact ⟨begins.elements, begins.failure, begins.graphAfter⟩

/-- A client that is called goes on with the same pages. -/
theorem prepared_of_change {kind : Exchange → Prop} {id : ClientId} {script : Script}
    (prepared : g.clients[id]? = some (.prepared script)) (change : Change kind g h) :
    ∃ later, h.clients[id]? = some (.prepared later) ∧ later.pages = script.pages := by
  obtain ⟨c, there, on⟩ := change.clients id _ prepared
  cases c with
  | prepared later => exact ⟨later, there, on.2⟩
  | http c => exact on.elim
  | standIn v => exact on.elim

/-- What looking for the next element comes to, by what the next page contributes. -/
def SeeksOn (harvest : Harvest) (context : Context) (limit : Nat) (p : Paging)
    (sought : Except Failure (Option (Element × Paging × Ready)) × Graph) :
    Except Failure (List Element) × Graph → Prop
  | (.error f, h) => sought = (.error f, h)
  | (.ok [], h) => sought = runIn (seek harvest context limit p) h
  | (.ok (first :: others), h) =>
    ∃ ready, sought = (.ok (some (first, p, ready)), h) ∧ ready.Leaves h.store others

/-- A page that is asked for ends the search unless it contributes nothing. -/
theorem seeksOn_of_seek (harvest : Harvest) (context : Context) (limit : Nat) {p : Paging}
    {reply : Reply} {left : List Reply} {script : Script} {sent : Json}
    (prepared : g.clients[p.client]? = some (.prepared script))
    (offers : Offers p (reply :: left) script) (spelt : g.store.shownTree? p.params = some sent) :
    SeeksOn harvest context limit { p with pages := .prepared left }
      (runIn (seek harvest context (limit + 1) p) g)
      (runIn (readPage harvest context p.params reply) (p.noted sent g)) := by
  unfold seek readPage
  rw [runIn_bind, runIn_nextPage prepared offers, runIn_preparedPage, spelt]
  dsimp only
  rw [runIn_bind, runIn_bind]
  rcases runIn (respond (some reply) p.params) (p.noted sent g) with ⟨f | page, mid⟩
  · rfl
  · dsimp only
    rw [runIn_pure]
    dsimp only
    rw [runIn_bind]
    rcases readies_harvestPage harvest context page mid with
      ⟨f, h, harvested, given⟩ | ⟨ready, given, h, harvested, gave, leaves⟩
    · rw [harvested, given]
      rfl
    · rw [harvested, gave]
      dsimp only
      rw [runIn_bind]
      cases given with
      | nil =>
        rw [takeReady_empty leaves]
        rfl
      | cons first others =>
        obtain ⟨remaining, took, remain⟩ := takeReady_some leaves
        rw [took]
        exact ⟨remaining, rfl, remain⟩

/-- Looking for the next element on the pages of a prepared client follows their course. -/
theorem seeks_of_seek (harvest : Harvest) (context : Context) {limit : Nat} {p : Paging}
    {left : List Reply} {script : Script} (prepared : g.clients[p.client]? = some (.prepared script))
    (offers : Offers p left script) (enough : left.length < limit) :
    Seeks harvest context p left g (runIn (seek harvest context limit p) g) := by
  induction limit generalizing p left g script with
  | zero => cases enough
  | succ limit ih =>
    cases left with
    | nil =>
      unfold seek
      rw [runIn_bind, runIn_nextPage prepared offers]
      exact .inl ⟨rfl, rfl⟩
    | cons reply left =>
      have course := read_cons harvest context p reply left g
      cases spelt : g.store.shownTree? p.params with
      | none =>
        rw [spelt] at course
        unfold Seeks seek
        rw [course, runIn_bind, runIn_nextPage prepared offers, runIn_preparedPage, spelt]
        exact .inl ⟨rfl, rfl⟩
      | some sent =>
        rw [spelt] at course
        have on := seeksOn_of_seek harvest context limit prepared offers spelt
        have noting : Calls anyCall g (p.noted sent g) := note_keeps serving_calls trivial g
        have changes : Keeps (Change anyCall) (readPage harvest context p.params reply) :=
          readPage_change (fun _ _ => trivial) harvest context p.params reply
        have reading := changes (p.noted sent g)
        dsimp only at course
        rcases ran : runIn (readPage harvest context p.params reply) (p.noted sent g) with
          ⟨f | _ | ⟨first, others⟩, h⟩ <;> rw [ran] at course on reading
        · unfold Seeks
          rw [course, on]
          exact .inl ⟨rfl, rfl⟩
        · obtain ⟨later, still, _⟩ :=
            prepared_of_change prepared (change_lasting.trans noting.change reading)
          rw [on]
          exact .pass course (ih still (.inl rfl) (Nat.lt_of_succ_lt_succ enough))
        · obtain ⟨ready, found, leaves⟩ := on
          unfold Seeks
          rw [course, found]
          refine .inr ⟨first, others, ready, left, h, rfl, Nat.le_succ _, leaves, rfl, rfl, fun n => ?_⟩
          change PageCourse.graphAfter h _ (n + 1 - (others.length + 1)) = _
          rw [Nat.add_sub_add_right]

end Act

end ResourceGraph
