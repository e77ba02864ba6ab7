import Mathlib
import ResourceGraph.Proofs.Extraction
import ResourceGraph.Proofs.Fanout

/-!
Resources built from one list of a response. Each path into the list leaves out the elements without
the part that it asks for, and what is left is taken by place; so a resource need not take all it
has from one element. It does if its data are the elements themselves, or if no element has only
some of the parts.
-/

namespace ResourceGraph

open ResourceGraph.Graph Store

namespace Builder

/-- The lists that the builder draws on are those of members of the elements of one list of the
response, and so are the data, unless they are the elements themselves. No other source is for the
same identifier. -/
structure DrawsOn (b : Builder) (list : String) : Prop where
  bare : Path.Bare list
  members : ∀ s ∈ b.sources, s.isPlural = true →
    s.kind = .responsePath ∧ ∃ member, Path.Bare member ∧ s.source = Path.ofElements list (some member)
  loads : b.loadPath = none ∨
    ∃ part, (∀ member ∈ part, Path.Bare member) ∧ b.loadPath = some (Path.ofElements list part)
  apart : ∀ s ∈ b.sources, s.isPlural = true → ∀ other ∈ b.sources, other.target = s.target → other = s
  unreserved : ∀ s ∈ b.sources, s.target ≠ dataKey

/-- To extract the sources writes nothing into the response: they read no data of the caller, or it
is there, or what would be loaded for it can write only into containers that the response does not
hold. -/
def Spares (b : Builder) (context : Context) (response : Response) (g : Graph) : Prop :=
  (∀ s ∈ b.sources, s.kind ≠ .dataMember) ∨
    ∀ id r, context.caller = some id → g.resources[id]? = some r →
      r.data.isSome = true ∨ g.store.Apart response.data (r.identifiers.map Prod.snd)

/-- The builder asks the elements of the list for a part. -/
def Asks (b : Builder) (list : String) (part : Option String) : Prop :=
  ∃ source ∈ b.allSources, source.isPlural = true ∧ source.source = Path.ofElements list part

/-- The element has all parts that the builder asks for, or none of them. -/
def Even (b : Builder) (list : String) (s : Store) (item : Datum) : Prop :=
  (∀ part, b.Asks list part → Path.isNull (s.part item part) = false) ∨
    ∀ part, b.Asks list part → Path.isNull (s.part item part) = true

/-- The resource takes each identifier from a place among the parts that are not null, and its data
too, or null where there are fewer. -/
def TakesPlace (b : Builder) (list : String) (s : Store) (items : List Datum) (place : Nat)
    (r : Resource) :
    Prop :=
  (∀ source ∈ b.sources, source.isPlural = true → ∀ member,
    source.source = Path.ofElements list (some member) →
      ∃ v, (s.column items (some member))[place]? = some v ∧
        Keyed.get? r.identifiers source.target = some v) ∧
  ∀ part, b.loadPath = some (Path.ofElements list part) →
    r.data = some ((s.column items part)[place]?.getD .null)

/-- The resource takes its identifiers and its data from one element. -/
def TakesFrom (b : Builder) (list : String) (s : Store) (item : Datum) (r : Resource) : Prop :=
  (∀ source ∈ b.sources, source.isPlural = true → ∀ member,
    source.source = Path.ofElements list (some member) →
      Keyed.get? r.identifiers source.target = some (s.part item (some member))) ∧
  ∀ part, b.loadPath = some (Path.ofElements list part) → r.data = some (s.part item part)

variable {b : Builder} {list : String} {s : Store} {items : List Datum} {part : Option String}

/-! ## Sources -/

theorem dataSource_of_loadPath (path : b.loadPath = some (Path.ofElements list part)) :
    b.dataSource? = some ⟨.responsePath, Path.ofElements list part, dataKey⟩ := by
  have full : (Path.ofElements list part).isEmpty = false := by
    cases part <;> simp [Path.ofElements, String.isEmpty]
  rw [dataSource?, path]
  simp [full]

theorem DrawsOn.data (draws : b.DrawsOn list) {s : IdentifierSource}
    (member : s ∈ b.dataSource?.toList) :
    ∃ part, (∀ member ∈ part, Path.Bare member) ∧
      s = ⟨.responsePath, Path.ofElements list part, dataKey⟩ := by
  rcases draws.loads with none | ⟨part, bare, path⟩
  · simp [dataSource?, none] at member
  · rw [dataSource_of_loadPath path] at member
    exact ⟨part, bare, List.mem_singleton.mp member⟩

theorem DrawsOn.reads (draws : b.DrawsOn list) :
    ∀ s ∈ b.allSources, s.isPlural = true → s.ReadsList list := by
  intro s member plural
  rcases List.mem_append.mp member with identifier | data
  · obtain ⟨kind, name, bare, source⟩ := draws.members s identifier plural
    exact ⟨kind, some name, by simpa using bare, source⟩
  · obtain ⟨part, bare, rfl⟩ := draws.data data
    exact ⟨rfl, part, bare, rfl⟩

theorem DrawsOn.apart_all (draws : b.DrawsOn list) :
    ∀ s ∈ b.allSources, ∀ other ∈ b.allSources, other.isPlural = true → s.target = other.target →
      s = other := by
  intro s member other inside plural same
  rcases List.mem_append.mp member with identifier | data
  · rcases List.mem_append.mp inside with other | data
    · exact draws.apart _ other plural s identifier same
    · obtain ⟨_, _, rfl⟩ := draws.data data
      exact absurd same (draws.unreserved s identifier)
  · rcases List.mem_append.mp inside with identifier | again
    · obtain ⟨_, _, rfl⟩ := draws.data data
      exact absurd same.symm (draws.unreserved other identifier)
    · rw [Option.mem_toList] at data again
      exact Option.some.inj (data.symm.trans again)

/-- The data are asked for as a part of each element. -/
theorem mem_allSources_of_loadPath (path : b.loadPath = some (Path.ofElements list part)) :
    ⟨.responsePath, Path.ofElements list part, dataKey⟩ ∈ b.allSources ∧
      IdentifierSource.isPlural ⟨.responsePath, Path.ofElements list part, dataKey⟩ = true := by
  constructor
  · rw [allSources, dataSource_of_loadPath path]
    simp
  · rw [IdentifierSource.isPlural, Path.isPlural_ofElements]
    rfl

private theorem asks_of_mem {source : IdentifierSource} (member : source ∈ b.sources)
    (plural : source.isPlural = true)
    (path : source.source = Path.ofElements list part) : b.Asks list part :=
  ⟨source, List.mem_append_left _ member, plural, path⟩

private theorem asks_of_loadPath (path : b.loadPath = some (Path.ofElements list part)) :
    b.Asks list part :=
  ⟨_, (mem_allSources_of_loadPath path).1, (mem_allSources_of_loadPath path).2, rfl⟩

private theorem mem_pluralTargets {source : IdentifierSource} (member : source ∈ b.allSources)
    (plural : source.isPlural = true) : source.target ∈ b.pluralTargets :=
  List.mem_map_of_mem (List.mem_filter.mpr ⟨member, plural⟩)

/-! ## One element for each place -/

/-- The list of the parts that are not null, of the elements that have them. -/
theorem column_eq_map (s : Store) (items : List Datum) (part : Option String) :
    s.column items part =
      (items.filter fun item => !Path.isNull (s.part item part)).map fun item => s.part item part := by
  rw [column, List.filter_map]
  rfl

/-- Where no element has only some of the parts, all columns are of the same elements. -/
theorem takesFrom_of_even {place : Nat} {r : Resource} (takes : b.TakesPlace list s items place r)
    (even : ∀ item ∈ items, b.Even list s item) (asks : b.Asks list part)
    (inside : place < (s.column items part).length) : ∃ item ∈ items, b.TakesFrom list s item r := by
  let having := items.filter fun item => !Path.isNull (s.part item part)
  have same : ∀ other, b.Asks list other →
      s.column items other = having.map fun item => s.part item other := by
    intro other asksOther
    rw [column_eq_map]
    congr 1
    refine List.filter_congr fun item member => ?_
    rcases even item member with all | none
    · rw [all part asks, all other asksOther]
    · rw [none part asks, none other asksOther]
  rw [same part asks, List.length_map] at inside
  have there : having[place]? = some having[place] := List.getElem?_eq_getElem inside
  refine ⟨having[place], (List.mem_filter.mp (List.mem_of_getElem? there)).1, ?_, ?_⟩
  · intro source member plural name path
    obtain ⟨v, found, taken⟩ := takes.1 source member plural name path
    rw [same _ (asks_of_mem member plural path), List.getElem?_map, there] at found
    cases found
    exact taken
  · intro other path
    rw [takes.2 other path, same _ (asks_of_loadPath path), List.getElem?_map, there]
    rfl

/-- Where no column is shorter than the list, every element has all parts. -/
theorem even_of_full (full : ∀ part, b.Asks list part → items.length ≤ (s.column items part).length) :
    ∀ item ∈ items, b.Even list s item := by
  intro item member
  refine .inl fun part asks => ?_
  have long := full part asks
  rw [column_eq_map, List.length_map] at long
  have all := List.length_filter_eq_length_iff.mp (Nat.le_antisymm (List.length_filter_le _ _) long)
  simpa using all item member

end Builder

namespace Act

variable {b : Builder} {list : String} {context : Context} {response : Response} {g h : Graph}
  {items : List Datum} {serial : Nat} {members : List ResourceId}

/-! ## Building -/

/-- Some region guards the data of the caller, and the list of the response lies outside of it. -/
theorem guarding_of_spares (draws : b.DrawsOn list) (lists : g.store.Lists response.data list items)
    (spares : b.Spares context response g) :
    ∃ before, g.store.Region before ∧ g.store.ListsBeyond before response.data list items ∧
      ((∀ s ∈ b.allSources, s.kind ≠ .dataMember) ∨ Guarded context before g) := by
  rcases spares with plain | calm
  · refine ⟨_, region_nothing g.store, lists.beyond_nothing, .inl fun s member => ?_⟩
    rcases List.mem_append.mp member with identifier | data
    · exact plain s identifier
    · obtain ⟨_, _, rfl⟩ := draws.data data
      simp
  · by_cases unheld : ∃ id r, context.caller = some id ∧ g.resources[id]? = some r ∧
      r.data.isSome = false
    · obtain ⟨id, r, caller, there, absent⟩ := unheld
      obtain ⟨own, foreign, mine, others, disjoint, inside, held⟩ :=
        (calm id r caller there).resolve_left (by simp [absent])
      refine ⟨foreign, others, lists.beyond_foreign mine disjoint inside,
        .inr fun other s same found => ?_⟩
      obtain rfl : id = other := Option.some.inj (caller.symm.trans same)
      obtain rfl : r = s := Option.some.inj (there.symm.trans found)
      exact .inr fun entry member => held _ (List.mem_map_of_mem member)
    · refine ⟨_, region_nothing g.store, lists.beyond_nothing, .inr fun id r caller there => .inl ?_⟩
      by_contra absent
      exact unheld ⟨id, r, caller, there, by simpa using absent⟩

/-- What building finds: a column for each part that is asked for, and a resource for each place. -/
structure Places (b : Builder) (list : String) (s : Store) (items : List Datum)
    (members : List ResourceId)
    (h : Graph) : Prop where
  takes : ∀ (place : Nat) id, members[place]? = some id →
    ∃ r, h.resources[id]? = some r ∧ b.TakesPlace list s items place r
  bounds : members ≠ [] → ∀ part, b.Asks list part → (s.column items part).length ≤ members.length
  reached : members ≠ [] → ∃ part, b.Asks list part ∧ (s.column items part).length = members.length

section Columns

variable {opened : Datum → Datum} {values : Keyed Datum} {s : Store} {part : Option String} {place : Nat}

/-- The lists that rows are made of are the columns of the parts that are asked for. -/
def Columns (b : Builder) (list : String) (s : Store) (items : List Datum) (opened : Datum → Datum)
    (values : Keyed Datum) : Prop :=
  ∀ source ∈ b.allSources, source.isPlural = true → ∀ part, source.source = Path.ofElements list part →
    ∃ v, Keyed.get? values source.target = some v ∧ Builder.elements opened v = s.column items part

theorem Columns.get?_row (columns : Columns b list s items opened values) {source : IdentifierSource}
    (member : source ∈ b.allSources) (plural : source.isPlural = true)
    (path : source.source = Path.ofElements list part) :
    Keyed.get? (Builder.row opened b.pluralTargets values place) source.target =
      some ((s.column items part)[place]?.getD .null) := by
  obtain ⟨v, there, same⟩ := columns source member plural part path
  rw [Builder.get?_row (Builder.mem_pluralTargets member plural) there, same]

theorem Columns.length (columns : Columns b list s items opened values) {source : IdentifierSource}
    (member : source ∈ b.allSources) (plural : source.isPlural = true)
    (path : source.source = Path.ofElements list part) :
    (Builder.elementsFor opened values source.target).length = (s.column items part).length := by
  obtain ⟨v, there, same⟩ := columns source member plural part path
  rw [Builder.elementsFor, there, Option.getD_some, same]

/-- A resource with the identifiers and the data of the row at a place takes them from that place. -/
theorem Columns.takesPlace {r : Resource} (columns : Columns b list s items opened values)
    (draws : b.DrawsOn list) (fits : OfRow (Builder.row opened b.pluralTargets values place) r) :
    b.TakesPlace list s items place r := by
  obtain ⟨named, data⟩ := fits
  refine ⟨fun source member plural name path => ?_, fun part path => ?_⟩
  · have inside := List.mem_append_left b.dataSource?.toList member
    obtain ⟨full, taken⟩ :=
      named _ _ (draws.unreserved source member) (columns.get?_row inside plural path)
    cases there : (s.column items (some name))[place]? with
    | none =>
      rw [there] at full
      exact absurd rfl full
    | some v =>
      rw [there] at taken
      exact ⟨v, rfl, taken⟩
  · obtain ⟨inside, plural⟩ := Builder.mem_allSources_of_loadPath path
    rw [data]
    exact columns.get?_row inside plural rfl

/-- Rows that are made of the columns give a resource for each place. -/
theorem places_of_rows (draws : b.DrawsOn list) (columns : Columns b list s items opened values)
    (ran : runIn ((Builder.rows opened b.pluralTargets values).mapM (buildOne b context)) g =
      (.ok members, h)) :
    Places b list s items members h := by
  obtain ⟨long, _, each⟩ := buildRows_gives ran
  have first : members ≠ [] →
      ∃ found, (Builder.rows opened b.pluralTargets values)[0]? = some found := by
    intro full
    have inside : 0 < (Builder.rows opened b.pluralTargets values).length :=
      long ▸ List.length_pos_of_ne_nil full
    exact ⟨_, List.getElem?_eq_getElem inside⟩
  refine ⟨fun place id found => ?_, fun full part asks => ?_, fun full => ?_⟩
  · obtain ⟨found, r, there, kept, fits⟩ := each place id found
    obtain ⟨rfl, _, _⟩ := Builder.of_rows there
    exact ⟨r, kept, columns.takesPlace draws fits⟩
  · obtain ⟨found, there⟩ := first full
    obtain ⟨_, bounds, _⟩ := Builder.of_rows there
    obtain ⟨source, member, plural, path⟩ := asks
    rw [long, ← columns.length member plural path]
    exact bounds _ (Builder.mem_pluralTargets member plural)
  · obtain ⟨found, there⟩ := first full
    obtain ⟨_, _, target, member, reached⟩ := Builder.of_rows there
    obtain ⟨source, asking, rfl⟩ := List.mem_map.mp member
    obtain ⟨inside, plural⟩ := List.mem_filter.mp asking
    obtain ⟨_, part, _, path⟩ := draws.reads source inside plural
    refine ⟨part, ⟨source, inside, plural, path⟩, ?_⟩
    rw [long, ← reached, columns.length inside plural path]

end Columns

/-- Where the data are the elements themselves, there is a resource for each of them, and so every
element has all parts. -/
theorem Places.even_of_whole (places : Places b list g.store items members h) (draws : b.DrawsOn list)
    (lists : g.store.Lists response.data list items)
    (whole : b.loadPath = some (Path.ofElements list none))
    (full : members ≠ []) : ∀ item ∈ items, b.Even list g.store item := by
  obtain ⟨_, _, _, objects⟩ := lists
  have all := column_none objects
  have enough := places.bounds full none (Builder.asks_of_loadPath whole)
  rw [all] at enough
  refine Builder.even_of_full fun part asks => ?_
  obtain ⟨source, member, plural, path⟩ := asks
  rcases List.mem_append.mp member with identifier | data
  · obtain ⟨_, name, _, named⟩ := draws.members source identifier plural
    obtain rfl := Path.ofElements_injective (path.symm.trans named)
    -- The last resource takes its identifier from the last place, so the column reaches as far.
    have inside : members.length - 1 < members.length := by
      have := List.length_pos_of_ne_nil full
      omega
    obtain ⟨r, _, takes⟩ := places.takes _ _ (List.getElem?_eq_getElem inside)
    obtain ⟨v, found, _⟩ := takes.1 source identifier plural name path
    have reached := (List.getElem?_eq_some_iff.mp found).1
    omega
  · rw [Builder.dataSource_of_loadPath whole] at data
    obtain rfl := List.mem_singleton.mp data
    dsimp only at path
    obtain rfl := Path.ofElements_injective path
    rw [all]

private theorem places_of_build (draws : b.DrawsOn list) (answered : context.response = some response)
    (well : g.store.WellRead) (lists : g.store.Lists response.data list items)
    (spares : b.Spares context response g)
    (built : runIn (build b context) g = (.ok (.several serial members), h)) :
    Places b list g.store items members h := by
  obtain ⟨before, within, beyond, quiet⟩ := guarding_of_spares draws lists spares
  unfold build at built
  obtain ⟨values, mid, extracted, built⟩ := bind_gives.mp built
  have start : Extracted list items g.store before [] [] before g.store :=
    ⟨.refl within, fun _ member => by cases member⟩
  obtain ⟨last, found⟩ := start.steps draws.bare answered draws.reads quiet
    (fun s member other inside => draws.apart_all s member other inside) well beyond extracted
  have columns : Columns b list g.store items mid.store.opened values := by
    intro source member plural part path
    obtain ⟨v, there, shows⟩ := found.columns source member plural part path
    refine ⟨v, there, ?_⟩
    rw [Builder.elements, shows.2]
  split at built
  · rw [runIn_bind_ok (runIn_get mid)] at built
    obtain ⟨made, final, ran, rest⟩ := bind_gives.mp built
    obtain ⟨_, _, counted, done⟩ := bind_gives.mp rest
    cases counted
    cases done
    have places := places_of_rows draws columns ran
    exact ⟨places.takes, places.bounds, places.reached⟩
  · obtain ⟨one, _, _, same⟩ := bind_gives.mp built
    cases same

/-- What a builder makes of one list of a response, where the expressions that are kept are well
read, as they are in every graph that a compiled model leads to. The resource at a place takes each
of its identifiers from that place among the members that are not null, and its data likewise, or
null where there are fewer. So each resource takes all it has from one element if its data are the
elements themselves, or if no element has only some of the parts that are asked for. -/
theorem build_from_list (draws : b.DrawsOn list) (answered : context.response = some response)
    (well : g.store.WellRead) (lists : g.store.Lists response.data list items)
    (spares : b.Spares context response g)
    (built : runIn (build b context) g = (.ok (.several serial members), h)) :
    (∀ (place : Nat) id, members[place]? = some id →
      ∃ r, h.resources[id]? = some r ∧ b.TakesPlace list g.store items place r) ∧
    (b.loadPath = some (Path.ofElements list none) ∨ (∀ item ∈ items, b.Even list g.store item) →
      ∀ id ∈ members, ∃ r, h.resources[id]? = some r ∧
        ∃ item ∈ items, b.TakesFrom list g.store item r) := by
  have places := places_of_build draws answered well lists spares built
  refine ⟨places.takes, fun even id member => ?_⟩
  have full : members ≠ [] := List.ne_nil_of_mem member
  have even : ∀ item ∈ items, b.Even list g.store item := by
    rcases even with whole | even
    · exact places.even_of_whole draws lists whole full
    · exact even
  obtain ⟨place, found⟩ := List.mem_iff_getElem?.mp member
  obtain ⟨r, there, takes⟩ := places.takes place id found
  obtain ⟨part, asks, long⟩ := places.reached full
  have inside := (List.getElem?_eq_some_iff.mp found).1
  exact ⟨r, there, Builder.takesFrom_of_even takes even asks (by omega)⟩

/-- Builds users of teams from a list of a response, each with the mail as data. -/
def userBuilder : Builder :=
  ⟨⟨0, "User"⟩, [⟨.responsePath, "Users[].Name", "name"⟩, ⟨.responsePath, "Users[].Team", "team"⟩],
    some "Users[].Mail"⟩

/-- A user with a client, and a response with a list of three elements. -/
def roster (first second third : List (String × Datum)) : Graph where
  store := { cells := #[.data (.object [("Users", .shared ⟨1⟩)]),
    .data (.list [.shared ⟨2⟩, .shared ⟨3⟩, .shared ⟨4⟩]),
    .data (.object first), .data (.object second), .data (.object third)] }
  types := #[{ name := "User", identifiers := ["name", "team"] }]
  clients := #[.prepared {}]
  resources := #[
    { type := ⟨0, "User"⟩, identifiers := [("name", .str "dora"), ("team", .str "red")], client := 0 }]

/-- The user was answered with the response. -/
def rosterCall : Context := { caller := some 0, response := some ⟨.shared ⟨0⟩, .null⟩ }

private theorem drawsOn_userBuilder : userBuilder.DrawsOn "Users" where
  bare := Path.bare_of_toList rfl rfl rfl
  members := by
    intro s member _
    rcases List.mem_pair.mp member with rfl | rfl
    · exact ⟨rfl, "Name", Path.bare_of_toList rfl rfl rfl, rfl⟩
    · exact ⟨rfl, "Team", Path.bare_of_toList rfl rfl rfl, rfl⟩
  loads := by
    refine .inr ⟨some "Mail", fun member same => ?_, rfl⟩
    cases same
    exact Path.bare_of_toList rfl rfl rfl
  apart := by decide
  unreserved := by decide

private theorem lists_roster (first second third : List (String × Datum)) :
    (roster first second third).store.Lists (.shared ⟨0⟩) "Users"
      [.shared ⟨2⟩, .shared ⟨3⟩, .shared ⟨4⟩] := by
  refine ⟨.shared ⟨1⟩, rfl, rfl, ?_⟩
  simp only [List.forall_mem_cons]
  exact ⟨rfl, rfl, rfl, fun _ none => by cases none⟩

/-- Two users, and between them an element without any of the parts. -/
def evenRoster : Graph :=
  roster [("Name", .str "ann"), ("Team", .str "red"), ("Mail", .str "a")] []
    [("Name", .str "bob"), ("Team", .str "blue"), ("Mail", .str "b")]

private theorem asks_userBuilder {part : Option String} (asks : userBuilder.Asks "Users" part) :
    part = some "Name" ∨ part = some "Team" ∨ part = some "Mail" := by
  obtain ⟨source, member, _, path⟩ := asks
  have sources : userBuilder.allSources =
      [⟨.responsePath, Path.ofElements "Users" (some "Name"), "name"⟩,
      ⟨.responsePath, Path.ofElements "Users" (some "Team"), "team"⟩,
      ⟨.responsePath, Path.ofElements "Users" (some "Mail"), Builder.dataKey⟩] := rfl
  rw [sources] at member
  simp only [List.mem_cons, List.not_mem_nil, or_false] at member
  rcases member with rfl | rfl | rfl
  · exact .inl (Path.ofElements_injective path).symm
  · exact .inr (.inl (Path.ofElements_injective path).symm)
  · exact .inr (.inr (Path.ofElements_injective path).symm)

/-- Each of the two users has the name, the team and the mail of one element. -/
theorem build_evenRoster :
    ∃ h, runIn (build userBuilder rosterCall) evenRoster = (.ok (.several 0 [1, 2]), h) ∧
      ∀ id ∈ [1, 2], ∃ r, h.resources[id]? = some r ∧
        ∃ item ∈ [.shared ⟨2⟩, .shared ⟨3⟩, .shared ⟨4⟩],
          userBuilder.TakesFrom "Users" evenRoster.store item r := by
  have built : runIn (build userBuilder rosterCall) evenRoster =
      (.ok (.several 0 [1, 2]), (runIn (build userBuilder rosterCall) evenRoster).2) := by
    refine Prod.ext ?_ rfl
    cbv
  have plain : userBuilder.Spares rosterCall ⟨.shared ⟨0⟩, .null⟩ evenRoster := .inl (by decide)
  refine ⟨_, built,
    (build_from_list drawsOn_userBuilder rfl ?_ (lists_roster _ _ _) plain built).2 (.inr ?_)⟩
  · intro text known kept
    cases kept
  · simp only [List.forall_mem_cons]
    refine ⟨.inl fun part asks => ?_, .inr fun part asks => ?_, .inl fun part asks => ?_,
      fun _ none => by cases none⟩
    all_goals rcases asks_userBuilder asks with rfl | rfl | rfl <;> rfl

/-- Two users, the first of them without mail. -/
def unevenRoster : Graph :=
  roster [("Name", .str "ann"), ("Team", .str "red")]
    [("Name", .str "bob"), ("Team", .str "blue"), ("Mail", .str "b")] []

/-- The first user is given the mail of the second: all of this is from no one element. -/
theorem build_unevenRoster :
    userBuilder.DrawsOn "Users" ∧
      unevenRoster.store.Lists (.shared ⟨0⟩) "Users" [.shared ⟨2⟩, .shared ⟨3⟩, .shared ⟨4⟩] ∧
      ∃ h r, runIn (build userBuilder rosterCall) unevenRoster = (.ok (.several 0 [1, 2]), h) ∧
        h.resources[1]? = some r ∧ ∀ item ∈ [.shared ⟨2⟩, .shared ⟨3⟩, .shared ⟨4⟩],
          ¬ userBuilder.TakesFrom "Users" unevenRoster.store item r := by
  refine ⟨drawsOn_userBuilder, lists_roster _ _ _, (runIn (build userBuilder rosterCall) unevenRoster).2,
    { type := ⟨0, "User"⟩, identifiers := [("name", .str "ann"), ("team", .str "red")], client := 0,
      data := some (.str "b") }, Prod.ext ?_ rfl, ?_, ?_⟩
  · cbv
  · cbv
  · simp only [List.forall_mem_cons]
    refine ⟨fun takes => ?_, fun takes => ?_, fun takes => ?_, fun _ none => by cases none⟩
    · cases takes.2 (some "Mail") rfl
    · have named : some (Value.str "ann" : Datum) = some (.str "bob") :=
        takes.1 _ List.mem_cons_self rfl "Name" rfl
      simp at named
    · cases takes.2 (some "Mail") rfl

end Act

end ResourceGraph
