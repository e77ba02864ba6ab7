import ResourceGraph.Proofs.Confinement
import ResourceGraph.Proofs.ElementPath

/-!
What a path into a list finds. It asks every element for a part of it and leaves out what is null,
so that what it finds at a place need not come from the element at that place. The list that it
gives is new; the searched data stays as it is.
-/

namespace ResourceGraph

namespace Store

/-- What is asked of an element: the element itself, or a member of it, null if there is none. -/
def part (s : Store) (item : Datum) : Option String → Datum
  | none => item
  | some member => ((s.opened item).member? member).getD .null

/-- The parts of elements that are not null, in order. -/
def column (s : Store) (items : List Datum) (which : Option String) : List Datum :=
  (items.map fun item => s.part item which).filter fun v => !Path.isNull v

/-- The data has a list of objects under a name. -/
def Lists (s : Store) (data : Datum) (name : String) (items : List Datum) : Prop :=
  ∃ list, (s.opened data).member? name = some list ∧ s.opened list = .list items ∧
    ∀ item ∈ items, (s.opened item).entries?.isSome = true

/-- The data has a list of objects under a name, and what they are made of lies outside a region. -/
def ListsBeyond (s : Store) (region : Share → Prop) (data : Datum) (name : String) (items : List Datum) :
    Prop :=
  ∃ list, (s.opened data).member? name = some list ∧ s.opened list = .list items ∧
    (∀ item ∈ items, (s.opened item).entries?.isSome = true) ∧
    ∀ v ∈ data :: list :: items, s.Beyond region v

variable {s t : Store} {region wider own foreign : Share → Prop} {data : Datum} {name : String}
  {items : List Datum}

/-! ## Lists of objects -/

private theorem isNull_of_object {v : Datum} (object : (s.opened v).entries?.isSome = true) :
    Path.isNull v = false := by
  cases v <;> first | rfl | cases object

/-- Of objects that are asked for themselves, none is left out. -/
theorem column_none (objects : ∀ item ∈ items, (s.opened item).entries?.isSome = true) :
    s.column items none = items := by
  simp only [column, part, List.map_id', List.filter_eq_self]
  intro item member
  simp [isNull_of_object (objects item member)]

private theorem there_of_opened {share : Share} (other : s.opened (.shared share) ≠ .shared share) :
    ∃ c, s.cell? share = some c := by
  cases found : s.cell? share with
  | some c => exact ⟨c, rfl⟩
  | none =>
    refine absurd ?_ other
    rw [opened, found]

theorem ListsBeyond.lists (beyond : s.ListsBeyond region data name items) : s.Lists data name items := by
  obtain ⟨list, member, listed, objects, _⟩ := beyond
  exact ⟨list, member, listed, objects⟩

/-- What lies outside a region is there still, with the same parts, when only the region was
widened. -/
theorem ListsBeyond.widens (beyond : s.ListsBeyond region data name items)
    (widens : Widens s region t wider) :
    t.ListsBeyond wider data name items ∧ ∀ which, t.column items which = s.column items which := by
  obtain ⟨list, member, listed, objects, outside⟩ := beyond
  have same : ∀ v ∈ data :: list :: items, t.opened v = s.opened v :=
    fun v inside => (widens.beyond (outside v inside)).2
  have sameItem : ∀ item ∈ items, t.opened item = s.opened item :=
    fun item inside => same item (by simp [inside])
  constructor
  · refine ⟨list, ?_, ?_, fun item inside => ?_, fun v inside => (widens.beyond (outside v inside)).1⟩
    · rw [same data (by simp), member]
    · rw [same list (by simp), listed]
    · rw [sameItem item inside]
      exact objects item inside
  · intro which
    have parts : ∀ item ∈ items, t.part item which = s.part item which := by
      intro item inside
      cases which with
      | none => rfl
      | some member => rw [part, part, sameItem item inside]
    rw [column, column, List.map_congr_left parts]

/-- A region without places. -/
theorem region_nothing (s : Store) : s.Region fun _ => False :=
  ⟨fun _ => False.elim, fun _ _ => False.elim⟩

theorem Lists.beyond_nothing (lists : s.Lists data name items) :
    s.ListsBeyond (fun _ => False) data name items := by
  obtain ⟨list, member, listed, objects⟩ := lists
  refine ⟨list, member, listed, objects, fun v inside share same => ⟨id, there_of_opened ?_⟩⟩
  subst same
  intro shut
  rcases List.mem_cons.mp inside with same | inside
  · rw [← same, shut] at member
    cases member
  · rcases List.mem_cons.mp inside with same | inside
    · rw [← same, shut] at listed
      cases listed
    · have object := objects _ inside
      rw [shut] at object
      cases object

private theorem every_opened {v : Datum} (within : s.Region region) (held : v.Every region) :
    (s.opened v).Every region := by
  cases v with
  | shared share =>
    rw [opened]
    split
    · next content found => exact within.closed share content held found
    · exact held
  | _ => exact held

/-- What the data holds lies outside every region that has nothing in common with one of its own. -/
theorem Lists.beyond_foreign (lists : s.Lists data name items) (mine : s.Region own)
    (disjoint : ∀ share, own share → ¬ foreign share) (held : data.Every own) :
    s.ListsBeyond foreign data name items := by
  obtain ⟨list, member, listed, objects⟩ := lists
  have outside : ∀ v : Datum, v.Every own → s.Beyond foreign v := by
    rintro v held share rfl
    exact ⟨disjoint share held, mine.there share held⟩
  have listHeld : list.Every own := every_member? (every_opened mine held) member
  have itemsHeld : (Value.list items).Every own := listed ▸ every_opened mine listHeld
  refine ⟨list, member, listed, objects, fun v inside => outside v ?_⟩
  rcases List.mem_cons.mp inside with rfl | inside
  · exact held
  · rcases List.mem_cons.mp inside with rfl | inside
    · exact listHeld
    · exact Value.every_list.mp itemsHeld v inside

end Store

namespace Path

open Ask Store

variable {s : Store} {data : Datum} {name : String} {items : List Datum} {part : Option String}

/-! ## Searching -/

private theorem runIn_member (member : String) (item : Datum) (s : Store) :
    runIn (Path.member member item) s = (.ok (s.part item (some member)), s) := rfl

private theorem runIn_opened (v : Datum) (s : Store) :
    runIn (Ask.opened v) s = (.ok (s.opened v), s) := rfl

private theorem runIn_build (content : Datum) (s : Store) :
    runIn (Ask.build content) s =
      (.ok (.shared ⟨s.cells.size⟩), { s with cells := s.cells.push (.data content) }) := rfl

/-- A query that gives each element something, and changes nothing, gives what is not null. -/
theorem runIn_askEach {ask : Datum → Ask Datum} {found : Datum → Datum}
    (asks : ∀ item ∈ items, runIn (ask item) s = (.ok (found item), s)) :
    runIn (askEach ask items) s = (.ok ((items.map found).filter fun v => !isNull v), s) := by
  induction items with
  | nil => rfl
  | cons item rest ih =>
    have others := ih fun item member => asks item (List.mem_cons_of_mem _ member)
    rw [askEach, runIn_bind_ok (asks item List.mem_cons_self), runIn_bind_ok others, List.map_cons]
    cases null : isNull (found item) <;> simp [null]

private theorem runIn_partQuery (fuel room : Nat) (part : Option String) (item : Datum) (s : Store) :
    runIn (evalTo (fuel + 1) (room + stepsOfQuery) (partQuery part) item) s =
      (.ok (s.part item part), s) := by
  have enough : ¬ room + stepsOfQuery < stepsOfQuery := by omega
  cases part with
  | none =>
    rw [partQuery, evalTo, if_neg enough]
    rfl
  | some member =>
    rw [partQuery, evalTo, if_neg enough]
    exact runIn_member member item s

/-- Of a list of objects nothing is opened. -/
theorem runIn_flattened {list : Datum} (listed : s.opened list = .list items)
    (objects : ∀ item ∈ items, (s.opened item).entries?.isSome = true) :
    runIn (flattened list) s =
      (.ok (.shared ⟨s.cells.size⟩), { s with cells := s.cells.push (.data (.list items)) }) := by
  have single : ∀ opening : Datum → List Datum, (∀ item ∈ items, opening item = [item]) →
      items.flatMap opening = items := by
    intro opening alone
    rw [List.flatMap_congr alone]
    simp
  unfold flattened
  rw [runIn_bind, runIn_get]
  dsimp only
  rw [listed]
  dsimp only
  rw [single _ fun item member => ?_, runIn_build]
  have object := objects item member
  split
  · next inner same =>
    rw [same] at object
    cases object
  · rfl

/-- The query of a path into a list gives a new list, of what is not null. -/
theorem runIn_elementsQuery (fuel room : Nat) (lists : s.Lists data name items) (part : Option String) :
    ∃ share t, runIn (evalTo (fuel + 1 + 1 + 1) (room + stepsOfQuery + stepsOfQuery + stepsOfQuery)
        (elementsQuery name part) data) s = (.ok (.shared share), t) ∧
      t.cell? share = some (.data (.list (s.column items part))) ∧ s.cells.size ≤ share.cell := by
  have enough : ∀ room, ¬ room + stepsOfQuery < stepsOfQuery := fun room => by omega
  obtain ⟨list, member, listed, objects⟩ := lists
  let mid : Store := { s with cells := s.cells.push (.data (.list items)) }
  have grows : Widens s (fun _ => False) mid (fun _ => False) :=
    .of_grows (region_nothing s) (keepCell_adds _ s).cells (keepCell_adds (.data (.list items)) s).learns
  have found : runIn (evalTo (fuel + 1) (room + stepsOfQuery) (.field name) data) s = (.ok list, s) := by
    rw [evalTo, if_neg (enough room)]
    rw [runIn_member, Store.part, member]
    rfl
  have opens : runIn (evalTo (fuel + 1 + 1) (room + stepsOfQuery + stepsOfQuery)
      (.flatten (.field name)) data) s = (.ok (.shared ⟨s.cells.size⟩), mid) := by
    rw [evalTo, if_neg (enough _), Nat.add_sub_cancel]
    exact (runIn_bind_ok found).trans (runIn_flattened listed objects)
  have shown : mid.opened (.shared ⟨s.cells.size⟩) = .list items := by
    simp [mid, Store.opened, cell?]
  have lists : s.Lists data name items := ⟨list, member, listed, objects⟩
  have asked :
      runIn (askEach (evalTo (fuel + 1 + 1) (room + stepsOfQuery + stepsOfQuery) (partQuery part))
      items) mid = (.ok (s.column items part), mid) := by
    rw [← (lists.beyond_nothing.widens grows).2 part]
    exact runIn_askEach fun item _ => runIn_partQuery _ _ part item mid
  refine ⟨⟨mid.cells.size⟩, { mid with cells := mid.cells.push (.data (.list (s.column items part))) },
    ?_, ?_, ?_⟩
  · rw [elementsQuery, evalTo, if_neg (enough _), Nat.add_sub_cancel]
    rw [runIn_bind_ok opens, runIn_bind_ok (runIn_opened _ _), shown]
    dsimp only
    rw [runIn_bind_ok asked, runIn_build]
  · simp [cell?]
  · simp [mid]

/-- A path into a list is read as its query, whether it was read before or not. -/
theorem runIn_expression_ofElements (well : s.WellRead) (bare : Bare name)
    (parts : ∀ member ∈ part, Bare member) :
    (runIn (expression (ofElements name part)) s).1 = .ok (elementsQuery name part) := by
  have settled : ∀ t, (shareLiterals (elementsQuery name part)).run t =
      (elementsQuery name part, t) := by
    intro t
    cases part <;> rfl
  cases kept : Keyed.get? s.expressions (ofElements name part) with
  | some known =>
    obtain ⟨read, t, compiled, same⟩ := well _ _ kept
    rw [compile_ofElements bare parts] at compiled
    cases compiled
    rw [settled] at same
    rw [expression_known kept, ← same]
  | none =>
    rw [expression_unknown kept, compile_ofElements bare parts]
    dsimp only
    rw [settled]

/-- To search a path into a list of objects gives a new list, of the parts that are not null. -/
theorem search_ofElements (well : s.WellRead) (bare : Bare name) (parts : ∀ member ∈ part, Bare member)
    (lists : s.Lists data name items) :
    ∃ share t, runIn (search (ofElements name part) data) s = (.ok (.shared share), t) ∧
      t.cell? share = some (.data (.list (s.column items part))) ∧ s.cells.size ≤ share.cell := by
  have read := runIn_expression_ofElements well bare parts
  have widens : Widens s (fun _ => False) (runIn (expression (ofElements name part)) s).2
      (fun _ => False) :=
    .of_grows (region_nothing s) (expression_grows _ s) (expression_learns _ s)
  rcases ran : runIn (expression (ofElements name part)) s with ⟨result, mid⟩
  rw [ran] at read widens
  dsimp only at read widens
  subst read
  obtain ⟨beyond, same⟩ := lists.beyond_nothing.widens widens
  obtain ⟨share, t, found, kept, new⟩ := runIn_elementsQuery 990 987 beyond.lists part
  refine ⟨share, t, ?_, same part ▸ kept, Nat.le_trans widens.size new⟩
  have answered : runIn (eval (elementsQuery name part) data) mid = (.ok (.shared share), t) := found
  rw [search, if_neg (ofElements_ne_whole bare), runIn_bind_ok ran, runIn_adapt, answered]
  rfl

end Path

end ResourceGraph
