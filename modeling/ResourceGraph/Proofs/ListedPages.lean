import ResourceGraph.Proofs.Enumeration
import ResourceGraph.Proofs.Heeding

/-!
What an enumeration of values takes for a list. It is gone through what the path finds on each page,
so that a text contributes its characters and an object its keys, and a number ends the enumeration
with a failure; only what is empty contributes nothing, whatever it is. As long as everything that
is found is a list or empty, the enumeration gives the elements of the lists, in order. A builder
takes a plural source of which it finds no list for one without elements, and builds nothing.
-/

namespace ResourceGraph

open ResourceGraph.Graph

/-- The content is a list, or empty. -/
def Value.Listed {ρ : Type} (content : Value ρ) : Prop :=
  content.isEmpty = true ∨ ∃ items, content = .list items

/-- The elements of a list, as an enumeration gives them. -/
def Value.listElements (content : Datum) : List Element := (Builder.elements id content).map .value

namespace Act

/-- Answers a call for a page and looks up the path there. -/
def findOn (path : String) (params : Datum) (reply : Reply) : Act Datum := do
  search path (← respond (some reply) params).data

/-- What the path finds on the pages that a prepared client has, one after another, as the content
of each, and the failure that ends the pages if there is one. -/
def finds (path : String) (p : Paging) : List Reply → Graph → List Datum × Option Failure
  | [], _ => ([], none)
  | reply :: left, g =>
    match g.store.shownTree? p.params with
    | none => ([], some (.misuse .endless))
    | some sent =>
      match runIn (findOn path p.params reply) (p.noted sent g) with
      | (.error f, _) => ([], some f)
      | (.ok v, h) => (h.store.opened v :: (finds path p left h).1, (finds path p left h).2)

end Act

/-- What the path finds on the pages of an enumeration whose client has these pages. -/
def Graph.finds (g : Graph) (id : EnumerationId) (path : String) (request : Request) (context : Context)
    (replies : List Reply) : List Datum × Option Failure :=
  match runIn (Act.openPaging request context) (g.withProgress id .exhausted) with
  | (.error f, _) => ([], some f)
  | (.ok p, h) => Act.finds path p replies h

namespace Act

variable {g h : Graph} {v : Datum}

/-! ## One page -/

private theorem runIn_parts (v : Datum) (g : Graph) :
    runIn (parts v) g = (match g.store.opened v with
      | .list items => .ok items
      | .str s => .ok (s.toList.map fun c => .str c.toString)
      | content => match content.entries? with
        | some entries => .ok (entries.map Prod.fst)
        | none => .error (.misuse .notIterable), g) := by
  unfold parts
  rw [runIn_bind_ok (runIn_opened _ _)]
  cases g.store.opened v <;> rfl

private theorem runIn_valueContribution (v : Datum) (g : Graph) :
    runIn (valueContribution v) g = if (g.store.opened v).isEmpty then (.ok [], g) else
      ((runIn (parts v) g).1.map (List.map .value), g) := by
  unfold valueContribution
  rw [runIn_bind_ok (runIn_opened _ _)]
  split
  · rfl
  · have looked := parts_looks v g
    rcases ran : runIn (parts v) g with ⟨f | all, h⟩ <;> rw [ran] at looked <;>
      obtain rfl : g = h := looked
    · rw [runIn_bind_error ran]
      rfl
    · rw [runIn_bind_ok ran]
      rfl

/-- A value contributes the elements of a list exactly if it is one, or empty. -/
theorem valueContribution_lists_iff : runIn (valueContribution v) g =
    (.ok (Value.listElements (g.store.opened v)), g) ↔ (g.store.opened v).Listed := by
  rw [runIn_valueContribution, runIn_parts]
  generalize g.store.opened v = content
  by_cases empty : content.isEmpty = true
  · have none : content.listElements = [] := by
      cases content <;> simp_all [Value.listElements, Builder.elements, Value.isEmpty]
    simp [empty, none, Value.Listed]
  · rw [if_neg empty]
    cases content with
    | list items => simp [Value.Listed, Value.listElements, Builder.elements, Except.map]
    | _ =>
      simp_all [Value.Listed, Value.listElements, Builder.elements, Value.isEmpty,
        Value.entries?, Except.map]

/-- A page contributes what the value does that the path finds there. -/
theorem runIn_contribution_values {path : String} {page : Response} (context : Context)
    (found : runIn (search path page.data) g = (.ok v, h)) :
    runIn (contribution (.values path) context page) g = runIn (valueContribution v) h :=
  runIn_bind_ok found

/-! ## All pages -/

private theorem readPage_values (path : String) (context : Context) (params : Datum) (reply : Reply) :
    readPage (.values path) context params reply = findOn path params reply >>= valueContribution := by
  unfold readPage findOn
  rw [bind_assoc]
  rfl

/-- While only lists and what is empty are found, the pages contribute the elements of the lists, in
order, and end as the finding ends. -/
theorem read_lists (path : String) (context : Context) (p : Paging) (left : List Reply) (g : Graph)
    (listed : ∀ content ∈ (finds path p left g).1, content.Listed) :
    let course := PageCourse.read (.values path) context p left g
    course.elements = (finds path p left g).1.flatMap Value.listElements ∧
      course.failure? = (finds path p left g).2 := by
  induction left generalizing g with
  | nil => exact ⟨rfl, rfl⟩
  | cons reply left ih =>
    rw [read_cons, readPage_values]
    rw [finds] at listed ⊢
    cases shown : g.store.shownTree? p.params with
    | none => exact ⟨rfl, rfl⟩
    | some sent =>
      rw [shown] at listed
      dsimp only at listed ⊢
      rcases ran : runIn (findOn path p.params reply) (p.noted sent g) with ⟨f | v, h⟩
      · rw [runIn_bind_error ran]
        exact ⟨rfl, rfl⟩
      · rw [ran] at listed
        obtain ⟨here, further⟩ := List.forall_mem_cons.mp listed
        obtain ⟨elements, failure⟩ := ih h further
        rw [runIn_bind_ok ran, valueContribution_lists_iff.mpr here]
        refine ⟨?_, failure⟩
        rw [List.flatMap_cons, ← elements]
        rfl

/-! ## Resources -/

/-- A plural source that finds no list, or an empty one, makes a page contribute no resource. -/
theorem contribution_none {b : Builder} {context : Context} {page : Response} {found : Findings}
    {mid : Graph} {s : IdentifierSource}
    (extracted : Extracts { context with response := some page } g found mid)
    (all : found.map Prod.fst = b.allSources) (member : (s, v) ∈ found) (plural : s.isPlural = true)
    (sole : b.Sole s) (other : s.target ≠ Builder.dataKey)
    (none : Builder.elements mid.store.opened v = []) :
    runIn (contribution (.resources b) context page) g =
      (.ok [], { mid with lists := mid.lists + 1 }) := by
  have source : s ∈ b.allSources := all ▸ List.mem_map_of_mem member
  have many : b.isPlural = true := List.any_eq_true.mpr ⟨s, source, plural⟩
  have target : s.target ∈ b.pluralTargets := List.mem_map_of_mem (List.mem_filter.mpr ⟨source, plural⟩)
  have empty : Builder.elementsFor mid.store.opened found.values s.target = [] := by
    rw [Builder.elementsFor, Findings.get?_values, Findings.last?_of_sole all sole other member]
    exact none
  have rows : Builder.rows mid.store.opened b.pluralTargets found.values = [] := by
    have zero : 0 ∈ b.pluralTargets.map fun target =>
        (Builder.elementsFor mid.store.opened found.values target).length :=
      List.mem_map.mpr ⟨s.target, target, by rw [empty]; rfl⟩
    simp [Builder.rows, zero]
  have built : runIn (build b { context with response := some page }) g =
      (.ok (.several mid.lists []), { mid with lists := mid.lists + 1 }) := by
    unfold build
    rw [runIn_bind_ok (extractAll_iff.mpr ⟨found, extracted, all, rfl⟩), many, if_pos rfl,
      runIn_bind_ok (runIn_get mid), rows]
    rfl
  exact runIn_bind_ok built

end Act

namespace Operation

open Act

/-- **An enumeration of values gives the elements of the lists on its pages**, in order, and ends as
the pages end, as long as the path finds a list on each page, or what is empty. A page contributes
the elements of the list that is found there, which are none if something else is found, exactly if
that is a list or empty; anything else contributes its parts or ends the enumeration with a failure.
In an enumeration of resources it would contribute nothing: a page on which the plural source of a
builder finds no elements of a list contributes no resource, and no failure, whatever it finds. -/
theorem enumerates_lists {o : Operation} {request : Request} {path : String}
    (enumerates : o.enumerates? = some (request, .values path)) :
    (∀ g context, runIn (invoke o context) g = (.ok (.enumeration g.enumerations.size),
      { g with enumerations := g.enumerations.push ⟨.values path, context, .untouched request⟩ })) ∧
    (∀ (g : Graph) id context caller r script,
      g.enumerations[id]? = some ⟨.values path, context, .untouched request⟩ →
      context.caller = some caller → g.resources[caller]? = some r →
      g.clients[r.client]? = some (.prepared script) →
        let found := g.finds id path request context ((Keyed.get? script.pages request.method).getD [])
        (∀ content ∈ found.1, content.Listed) → ∀ k,
          (runEach (List.replicate k (next id)) g).1 =
            (List.range k).map (PageCourse.answerOf found.2 (found.1.flatMap Value.listElements))) ∧
    (∀ (g h : Graph) context page v, runIn (search path page.data) g = (.ok v, h) →
      (runIn (contribution (.values path) context page) g =
        (.ok (Value.listElements (h.store.opened v)), h) ↔
        (h.store.opened v).Listed)) ∧
    ∀ (b : Builder) (g mid : Graph) (context : Context) (page : Response) (found : Findings) target v,
      Extracts { context with response := some page } g found mid → found.map Prod.fst = b.allSources →
      (⟨.responsePath, path, target⟩, v) ∈ found → Path.isPlural path = true →
      b.Sole ⟨.responsePath, path, target⟩ → target ≠ Builder.dataKey →
      Builder.elements mid.store.opened v = [] →
      runIn (contribution (.resources b) context page) g =
        (.ok [], { mid with lists := mid.lists + 1 }) := by
  refine ⟨fun g context => runIn_invoke_enumerates enumerates context g, ?_, ?_, ?_⟩
  · intro g id context caller r script there called resourced prepared
    dsimp only
    intro listed k
    cases k with
    | zero => rfl
    | succ k =>
      rw [(steps_of_untouched there called resourced prepared k).answers]
      unfold PageCourse.answer Graph.course
      unfold Graph.finds at listed ⊢
      generalize runIn (openPaging request context) (g.withProgress id .exhausted) = opening at listed ⊢
      rcases opening with ⟨f | p, h⟩
      · rfl
      · obtain ⟨elements, failure⟩ := read_lists path context p _ h listed
        dsimp only
        rw [elements, failure]
  · intro g h context page v searched
    rw [runIn_contribution_values context searched]
    exact valueContribution_lists_iff
  · intro b g mid context page found target v extracted all member plural sole other none
    exact contribution_none extracted all member plural sole other none

end Operation

/-- The list whose items are gone through, with other pages. -/
def Graph.listedOn (pages : List Reply) : Graph :=
  { listed with clients := #[.prepared { pages := [("List", pages)] }] }

/-- Two pages, one of them without items, and a call that fails. -/
def plainPages : List Reply :=
  [⟨.data (.object [("Items", .list [.str "a", .str "b"])]), none⟩,
    ⟨.data (.object [("Items", .null)]), none⟩,
    ⟨.failure "lost", none⟩]

/-- Two pages with a text and with a number in the place of the items. -/
def oddPages : List Reply :=
  [⟨.data (.object [("Items", .str "ab")]), none⟩, ⟨.data (.object [("Items", .int 5)]), none⟩]

namespace Operation

open Act

/-- The items that are given are those of the lists, before the call fails. -/
theorem enumerates_lists_plain : (runEach (List.replicate 4 (next 0)) (.listedOn plainPages)).1 =
    [.ok (some (.value (.str "a"))), .ok (some (.value (.str "b"))), .error (.foreign "lost"),
      .ok none] := by
  have found : (listedOn plainPages).finds 0 "Items" ⟨"List", []⟩ { caller := some 0 }
      ((Keyed.get? [("List", plainPages)] "List").getD []) =
      ([.list [.str "a", .str "b"], .null], some (.foreign "lost")) := by cbv
  have gives := (enumerates_lists (o := listing) rfl).2.1 (listedOn plainPages) 0 _ 0 _ _ rfl rfl rfl rfl
  dsimp only at gives
  rw [found] at gives
  refine (gives (fun content member => ?_) 4).trans (by cbv)
  rcases List.mem_pair.mp member with rfl | rfl
  · exact .inr ⟨_, rfl⟩
  · exact .inl rfl

/-- The path finds no list on either page, and still the characters of the text are given, and the
number is a failure. -/
theorem unlisted_given : (listedOn oddPages).finds 0 "Items" ⟨"List", []⟩ { caller := some 0 } oddPages =
      ([.str "ab", .int 5], none) ∧
    (runEach (List.replicate 4 (next 0)) (.listedOn oddPages)).1 =
      [.ok (some (.value (.str "a"))), .ok (some (.value (.str "b"))),
        .error (.misuse .notIterable), .ok none] := by
  constructor <;> cbv

end Operation

end ResourceGraph
