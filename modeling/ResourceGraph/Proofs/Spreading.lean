import ResourceGraph.Proofs.Drawing
import ResourceGraph.Proofs.Incomplete

/-!
What a builder makes of what its sources give. A source that is not plural gives the same to every
resource, a plural one gives each resource the element at its place, and null beyond the end of its
list. A builder without plural sources makes one resource; any other makes as many as its longest
list has elements, and none when one of its lists is empty or is no list. All of them are made,
unless one of them would lack an identifier.
-/

namespace ResourceGraph

open ResourceGraph.Graph Outcome

/-- What was found for each source, in the order of the sources. -/
abbrev Findings := List (IdentifierSource × Datum)

/-- What a source gives to the resource at a place: all that was found, or the element at the place
where the source is plural, and null beyond the end. -/
def IdentifierSource.portion (opened : Datum → Datum) (s : IdentifierSource) (v : Datum) (place : Nat) :
    Datum :=
  if s.isPlural then (Builder.elements opened v)[place]?.getD .null else v

namespace Findings

variable (opened : Datum → Datum) (found : Findings)

/-- The values for the resource at a place, by target. -/
def valuesAt (place : Nat) : Keyed Datum :=
  found.map fun entry => (entry.1.target, entry.1.portion opened entry.2 place)

/-- No source gives an identifier of the type to the resource at a place. -/
def LeavesNull (t : ResourceType) (place : Nat) : Prop :=
  ∃ name ∈ t.identifiers, ∀ s v, (s, v) ∈ found → s.target = name → s.portion opened v place = .null

/-- How many resources plural sources describe: none if one of them found no list or an empty one,
and otherwise as many as the longest list has elements. -/
structure Extent (n : Nat) : Prop where
  none : ∀ s v, (s, v) ∈ found → s.isPlural = true → Builder.elements opened v = [] → n = 0
  longest : (∀ s v, (s, v) ∈ found → s.isPlural = true → Builder.elements opened v ≠ []) →
    (∀ s v, (s, v) ∈ found → s.isPlural = true → (Builder.elements opened v).length ≤ n) ∧
      ∃ s v, (s, v) ∈ found ∧ s.isPlural = true ∧ (Builder.elements opened v).length = n

/-- The resource that is described at a place: of the type, for the client, with every declared
identifier, each as its source gives it and none of them null. Where there is a source of the data
it is loaded, with whatever that source gives; elsewhere it is not. -/
structure Describes (b : Builder) (t : ResourceType) (client : ClientId) (place : Nat) (r : Resource) :
    Prop where
  type : r.type = b.target
  client : r.client = client
  declared : Keyed.keys r.identifiers = t.identifiers
  identifiers : ∀ s v, (s, v) ∈ found → s ∈ b.sources →
    s.portion opened v place ≠ .null ∧
      Keyed.get? r.identifiers s.target = some (s.portion opened v place)
  loaded : ∀ s v, (s, v) ∈ found → b.dataSource? = some s → r.data = some (s.portion opened v place)
  unloaded : b.dataSource? = none → r.data = none
  unreferring : r.references = []

end Findings

/-- Each source in turn gives what was found for it, in the graph that the ones before it lead to. -/
inductive Act.Extracts (context : Context) : Graph → Findings → Graph → Prop
  | nil (g : Graph) : Extracts context g [] g
  | cons {s : IdentifierSource} {v : Datum} {rest : Findings} {g mid h : Graph}
    (first : runIn (extract context s) g = (.ok v, mid)) (others : Extracts context mid rest h) :
    Extracts context g ((s, v) :: rest) h

/-! ## Values -/

namespace Keyed

variable {α : Type}

private theorem put_new {m : Keyed α} {key : String} (fresh : key ∉ keys m) (value : α) :
    put m key value = m ++ [(key, value)] := by
  induction m with
  | nil => rfl
  | cons entry rest ih =>
    obtain ⟨k, a⟩ := entry
    have different : k ≠ key := fun same => fresh (same ▸ List.mem_cons_self)
    rw [put, if_neg different, ih fun member => fresh (List.mem_cons_of_mem _ member), List.cons_append]

private theorem merge_new {m n : Keyed α} (distinct : (keys (m ++ n)).Nodup) : merge m n = m ++ n := by
  induction n generalizing m with
  | nil => exact (List.append_nil m).symm
  | cons entry rest ih =>
    have spread : m ++ entry :: rest = m ++ [entry] ++ rest := by
      rw [List.append_assoc, List.singleton_append]
    have fresh : entry.1 ∉ keys m := by
      rw [keys, List.map_append] at distinct
      exact fun member => (List.nodup_append.mp distinct).2.2 _ member _ List.mem_cons_self rfl
    rw [spread] at distinct ⊢
    rw [← ih distinct, ← put_new fresh]
    rfl

theorem ofList_distinct {fields : Keyed α} (distinct : (keys fields).Nodup) : ofList fields = fields :=
  merge_new (m := []) distinct

theorem get?_of_mem {m : Keyed α} (distinct : (keys m).Nodup) {key : String} {value : α}
    (member : (key, value) ∈ m) : get? m key = some value := by
  obtain ⟨index, there⟩ := List.mem_iff_getElem?.mp member
  exact get?_of_getElem? distinct there

end Keyed

theorem Builder.target_of_dataSource {b : Builder} {s : IdentifierSource}
    (data : b.dataSource? = some s) :
    s.target = dataKey := by
  unfold dataSource? at data
  split at data
  · split at data
    · cases data
    · cases data
      rfl
  · cases data

namespace Findings

variable {opened : Datum → Datum} {found : Findings} {place : Nat}

/-- The targets of the sources, in order. -/
abbrev targets (found : Findings) : List String := found.map fun entry => entry.1.target

@[simp]
theorem keys_valuesAt : Keyed.keys (found.valuesAt opened place) = found.targets := by
  simp [valuesAt, Keyed.keys]

private theorem source_of_target {b : Builder} (all : found.map Prod.fst = b.allSources) {key : String}
    (member : key ∈ found.targets) : ∃ s ∈ b.allSources, s.target = key := by
  obtain ⟨entry, listed, rfl⟩ := List.mem_map.mp member
  exact ⟨entry.1, all ▸ List.mem_map_of_mem listed, rfl⟩

private theorem get?_valuesAt (distinct : found.targets.Nodup) {s : IdentifierSource} {v : Datum}
    (member : (s, v) ∈ found) :
    Keyed.get? (found.valuesAt opened place) s.target = some (s.portion opened v place) := by
  refine Keyed.get?_of_mem (by rwa [keys_valuesAt]) ?_
  exact List.mem_map_of_mem
    (f := fun entry => (entry.1.target, entry.1.portion opened entry.2 place)) member

private theorem leavesNull_iff {t : ResourceType} (distinct : found.targets.Nodup) :
    found.LeavesNull opened t place ↔ t.Lacks (found.valuesAt opened place) := by
  refine exists_congr fun name => and_congr_right fun _ => ⟨fun null => ?_, ?_⟩
  · cases value : Keyed.get? (found.valuesAt opened place) name with
    | none => rfl
    | some w =>
      obtain ⟨⟨s, v⟩, member, same⟩ := List.mem_map.mp (Keyed.mem_of_get? value)
      cases same
      rw [null s v member rfl]
      rfl
  · rintro missing s v member rfl
    rwa [get?_valuesAt distinct member] at missing

/-- A place of a plural builder has the values that it is said to have. -/
theorem row_eq_valuesAt {b : Builder} (distinct : found.targets.Nodup)
    (all : found.map Prod.fst = b.allSources) :
    Builder.row opened b.pluralTargets (found.map fun entry => (entry.1.target, entry.2)) place =
      found.valuesAt opened place := by
  have plural : ∀ entry ∈ found, b.pluralTargets.contains entry.1.target = entry.1.isPlural := by
    intro entry member
    rw [Bool.eq_iff_iff, List.contains_iff_mem, Builder.pluralTargets, ← all]
    refine ⟨fun listed => ?_, fun plural => List.mem_map_of_mem (List.mem_filter.mpr ⟨?_, plural⟩)⟩
    · obtain ⟨s, listed, same⟩ := List.mem_map.mp listed
      obtain ⟨among, plural⟩ := List.mem_filter.mp listed
      obtain ⟨other, also, rfl⟩ := List.mem_map.mp among
      rwa [← List.inj_on_of_nodup_map distinct also member same]
    · exact List.mem_map_of_mem member
  rw [Builder.row, List.map_map, valuesAt]
  refine List.map_congr_left fun entry member => ?_
  simp only [Function.comp, plural entry member, IdentifierSource.portion]
  split <;> rfl

/-- Without plural sources every place has what was found. -/
theorem valuesAt_single (opened : Datum → Datum) (place : Nat) {b : Builder}
    (all : found.map Prod.fst = b.allSources) (single : b.isPlural = false) :
    found.map (fun entry => (entry.1.target, entry.2)) = found.valuesAt opened place := by
  refine List.map_congr_left fun entry member => ?_
  rw [Builder.isPlural, ← all, List.any_eq_false] at single
  rw [IdentifierSource.portion, if_neg (single entry.1 (List.mem_map_of_mem member))]

/-- The lengths that a builder compares are those of what its plural sources found. -/
theorem mem_lengths (opened : Datum → Datum) {b : Builder} (distinct : found.targets.Nodup)
    (all : found.map Prod.fst = b.allSources) {n : Nat} :
    n ∈ b.pluralTargets.map (fun target => (Builder.elementsFor opened
        (found.map fun entry => (entry.1.target, entry.2)) target).length) ↔
      ∃ s v, (s, v) ∈ found ∧ s.isPlural = true ∧ (Builder.elements opened v).length = n := by
  have elementsFor : ∀ s v, (s, v) ∈ found → Builder.elementsFor opened
      (found.map fun entry => (entry.1.target, entry.2)) s.target = Builder.elements opened v := by
    intro s v member
    have distinct : (Keyed.keys (found.map fun entry => (entry.1.target, entry.2))).Nodup := by
      simpa [Keyed.keys, Function.comp_def] using distinct
    rw [Builder.elementsFor, Keyed.get?_of_mem distinct (List.mem_map_of_mem member), Option.getD_some]
  simp only [Builder.pluralTargets, ← all, List.mem_map, List.mem_filter]
  constructor
  · rintro ⟨_, ⟨s, ⟨⟨⟨s, v⟩, member, rfl⟩, plural⟩, rfl⟩, rfl⟩
    exact ⟨s, v, member, plural, by rw [elementsFor s v member]⟩
  · rintro ⟨s, v, member, plural, rfl⟩
    exact ⟨s.target, ⟨s, ⟨⟨(s, v), member, rfl⟩, plural⟩, rfl⟩, by rw [elementsFor s v member]⟩

/-- The rows of a plural builder are the places up to its extent. -/
theorem rows_eq (opened : Datum → Datum) {b : Builder} (distinct : found.targets.Nodup)
    (all : found.map Prod.fst = b.allSources) (plural : b.isPlural = true) :
    ∃ n, found.Extent opened n ∧
      Builder.rows opened b.pluralTargets (found.map fun entry => (entry.1.target, entry.2)) =
        (List.range n).map (found.valuesAt opened) := by
  have row : Builder.row opened b.pluralTargets (found.map fun entry => (entry.1.target, entry.2)) =
      found.valuesAt opened := funext fun _ => row_eq_valuesAt distinct all
  have lengths := fun n => mem_lengths opened distinct all (n := n)
  have some : ∃ s v, (s, v) ∈ found ∧ s.isPlural = true := by
    rw [Builder.isPlural, ← all, List.any_map, List.any_eq_true] at plural
    obtain ⟨⟨s, v⟩, member, plural⟩ := plural
    exact ⟨s, v, member, plural⟩
  rw [Builder.rows, row]
  generalize b.pluralTargets.map _ = measured at lengths ⊢
  -- From here on only the lengths count: whether one is zero, and which is the greatest.
  by_cases empty : 0 ∈ measured
  · obtain ⟨s, v, member, plural, none⟩ := (lengths 0).mp empty
    refine ⟨0, ⟨fun _ _ _ _ _ => rfl, fun full => ?_⟩, by simp [empty]⟩
    exact absurd (List.length_eq_zero_iff.mp none) (full s v member plural)
  · cases most : measured.max? with
    | none =>
      obtain ⟨s, v, member, plural⟩ := some
      have listed := (lengths _).mpr ⟨s, v, member, plural, rfl⟩
      rw [List.max?_eq_none_iff.mp most] at listed
      cases listed
    | some n =>
      obtain ⟨reached, bounds⟩ := List.max?_eq_some_iff.mp most
      have longest : measured.foldl max 0 = n := by rw [List.foldl_max, most]; simp
      refine ⟨n, ⟨fun s v member plural none => ?_, fun _ => ⟨fun s v member plural => ?_, ?_⟩⟩, ?_⟩
      · exact absurd ((lengths 0).mpr ⟨s, v, member, plural, by rw [none]; rfl⟩) empty
      · exact bounds _ ((lengths _).mpr ⟨s, v, member, plural, rfl⟩)
      · exact (lengths n).mp reached
      · rw [if_neg (by simpa using empty), longest]

end Findings

namespace Act

variable {b : Builder} {context : Context} {g mid : Graph} {found : Findings} {id : ResourceId}
    {r : Resource}
  {t : ResourceType} {values : Keyed Datum}

/-! ## Extracting -/

/-- What each source gives, in turn, is kept by its target. -/
theorem Extracts.drawAll (extracted : Extracts context g found mid) (before : Keyed Datum) :
    runIn ((found.map Prod.fst).foldlM (drawOne context) before) g =
      (.ok (Keyed.merge before (found.map fun entry => (entry.1.target, entry.2))), mid) := by
  induction extracted generalizing before with
  | nil g => rfl
  | @cons s v rest g mid h first others ih =>
    have drawn : runIn (drawOne context before s) g = (.ok (Keyed.put before s.target v), mid) := by
      rw [drawOne, runIn_bind_ok first]
      rfl
    rw [List.map_cons, List.foldlM_cons, runIn_bind_ok drawn, ih]
    rfl

/-- Where no two sources have one target, all that they give is kept, in their order. -/
theorem runIn_extractAll (extracted : Extracts context g found mid)
    (all : found.map Prod.fst = b.allSources) (distinct : found.targets.Nodup) :
    runIn (extractAll b context) g = (.ok (found.map fun entry => (entry.1.target, entry.2)), mid) := by
  have kept : Keyed.merge [] (found.map fun entry => (entry.1.target, entry.2)) =
      found.map fun entry => (entry.1.target, entry.2) :=
    Keyed.ofList_distinct (by simpa [Keyed.keys, Function.comp_def] using distinct)
  unfold extractAll
  rw [← all, extracted.drawAll, kept]

theorem Extracts.change (extracted : Extracts context g found mid) : Change anyCall g mid := by
  induction extracted with
  | nil g => exact change_lasting.refl g
  | @cons s v rest g mid h first others ih =>
    exact change_lasting.trans ((extract_change (fun _ _ => trivial) context s).related first) ih

/-! ## One resource -/

/-- The values are for identifiers of the type or for the data, and for nothing that cannot be
given. -/
structure Suits (t : ResourceType) (values : Keyed Datum) : Prop where
  known : ∀ key ∈ Keyed.keys values, key = Builder.dataKey ∨ key ∈ t.identifiers
  unreserved : ∀ name ∈ t.identifiers, name ∉ reservedNames
  unselfish : "self" ∉ Keyed.keys values

/-- The resource is made of the values: its identifiers, and its data where there is a value for it. -/
structure Fills (b : Builder) (t : ResourceType) (client : ClientId) (values : Keyed Datum)
    (r : Resource) :
    Prop where
  type : r.type = b.target
  client : r.client = client
  identified : t.identify (Keyed.erase values Builder.dataKey) = .ok r.identifiers
  data : r.data = Keyed.get? values Builder.dataKey
  references : r.references = []

namespace Suits

variable (suits : Suits t values)
include suits

private theorem known_erase {key : String}
    (member : key ∈ Keyed.keys (Keyed.erase values Builder.dataKey)) :
    key ∈ t.identifiers := by
  obtain ⟨listed, other⟩ := Keyed.mem_keys_erase.mp member
  exact (suits.known key listed).resolve_left other

private theorem usable {name : String} (taken : name ∈ takenNames) :
    name ∉ Keyed.keys (Keyed.erase values Builder.dataKey) := by
  intro member
  have free := suits.unreserved name (suits.known_erase member)
  by_cases own : name = "self"
  · exact suits.unselfish (own ▸ (Keyed.mem_keys_erase.mp member).1)
  · simp only [takenNames, ResourceType.unusableNames, List.mem_cons, List.not_mem_nil,
      or_false] at taken
    simp only [reservedNames, List.mem_cons, List.not_mem_nil, or_false] at free
    grind

/-- Values identify a resource, unless one of the declared identifiers is null or absent. -/
theorem identify_cases :
    (t.Lacks values ∧ ∃ name, t.identify (Keyed.erase values Builder.dataKey) =
        .error (.identifier (.missing t.name name))) ∨
      ¬ t.Lacks values ∧ ∃ identifiers, t.identify (Keyed.erase values Builder.dataKey) =
        .ok identifiers := by
  cases identified : t.identify (Keyed.erase values Builder.dataKey) with
  | ok identifiers =>
    refine .inr ⟨fun lacks => ?_, identifiers, rfl⟩
    obtain ⟨f, refused⟩ := ResourceType.identify_of_lacks lacks
    rw [identified] at refused
    cases refused
  | error f =>
    rw [identify_of_known (fun _ => suits.usable) fun _ => suits.known_erase] at identified
    obtain ⟨name, declared, refused⟩ := error_of_mapM identified
    obtain ⟨rfl, null⟩ := of_unvalued refused
    have other : name ≠ Builder.dataKey := fun same =>
      suits.unreserved name declared (by simp [same, reservedNames, Builder.dataKey])
    rw [Keyed.get?_erase values other] at null
    exact .inl ⟨⟨name, declared, null⟩, name, rfl⟩

private theorem runIn_construct (typed : g.types[b.target.index]? = some t) :
    runIn (construct b.target [] (Keyed.erase values Builder.dataKey) (some r.client) none) g =
      match t.identify (Keyed.erase values Builder.dataKey) with
      | .ok identifiers =>
        (.ok g.resources.size,
          { g with resources := g.resources.push { type := b.target, identifiers, client := r.client } })
      | .error f => (.error f, g) :=
  runIn_construct_named r.client typed fun _ => suits.usable

/-- Values without one of the identifiers make no resource, and nothing is changed. -/
theorem buildOne_lacks (typed : g.types[b.target.index]? = some t) (called : context.caller = some id)
    (there : g.resources[id]? = some r) (lacks : t.Lacks values) :
    ∃ name, runIn (buildOne b context values) g = (.error (.identifier (.missing t.name name)), g) := by
  obtain ⟨-, name, refused⟩ | ⟨full, -⟩ := suits.identify_cases
  · have constructed := suits.runIn_construct (r := r) typed
    rw [refused] at constructed
    refine ⟨name, ?_⟩
    unfold buildOne
    rw [runIn_bind_ok (callerOf_runs called there), runIn_bind_error constructed]
  · exact absurd lacks full

/-- All other values make one more resource. -/
theorem buildOne_fills (typed : g.types[b.target.index]? = some t) (called : context.caller = some id)
    (there : g.resources[id]? = some r) (full : ¬ t.Lacks values) :
    ∃ s, Fills b t r.client values s ∧
      runIn (buildOne b context values) g =
        (.ok g.resources.size, { g with resources := g.resources.push s }) := by
  obtain ⟨lacks, -⟩ | ⟨-, identifiers, identified⟩ := suits.identify_cases
  · exact absurd lacks full
  · have constructed := suits.runIn_construct (r := r) typed
    rw [identified] at constructed
    refine ⟨{
      type := b.target, identifiers, client := r.client,
      data := Keyed.get? values Builder.dataKey }, ⟨rfl, rfl, identified, rfl, rfl⟩, ?_⟩
    unfold buildOne
    rw [runIn_bind_ok (callerOf_runs called there), runIn_bind_ok constructed]
    cases Keyed.get? values Builder.dataKey with
    | none => rfl
    | some v =>
      dsimp only
      rw [setData, runIn_bind_ok (runIn_changeResource _ _ _), runIn_pure, modify_last]

end Suits

/-! ## One resource for each row -/

private theorem there_push {g : Graph} (there : g.resources[id]? = some r) (s : Resource) :
    (g.resources.push s)[id]? = some r := by
  have inside := (Array.getElem?_eq_some_iff.mp there).1
  rw [Array.getElem?_push, if_neg (by omega), there]

/-- A row without one of the identifiers stops the building. -/
theorem buildRows_lack {rows : List (Keyed Datum)} (suit : ∀ row ∈ rows, Suits t row)
    (typed : g.types[b.target.index]? = some t) (called : context.caller = some id)
    (there : g.resources[id]? = some r) (lacking : ∃ row ∈ rows, t.Lacks row) :
    ∃ name more, runIn (rows.mapM (buildOne b context)) g =
      (.error (.identifier (.missing t.name name)), { g with resources := g.resources ++ more }) := by
  induction rows generalizing g with
  | nil => simp at lacking
  | cons row rest ih =>
    rw [List.mapM_cons]
    by_cases lacks : t.Lacks row
    · obtain ⟨name, failed⟩ := (suit row List.mem_cons_self).buildOne_lacks typed called there lacks
      exact ⟨name, #[], by rw [runIn_bind_error failed, Array.append_empty]⟩
    · obtain ⟨s, -, built⟩ := (suit row List.mem_cons_self).buildOne_fills typed called there lacks
      obtain ⟨row', member, lacks'⟩ := lacking
      have later : row' ∈ rest :=
        (List.mem_cons.mp member).resolve_left fun same => lacks (same ▸ lacks')
      obtain ⟨name, more, failed⟩ := ih (g := { g with resources := g.resources.push s })
        (fun row member => suit row (List.mem_cons_of_mem _ member)) typed (there_push there s)
        ⟨row', later, lacks'⟩
      refine ⟨name, #[s] ++ more, ?_⟩
      rw [runIn_bind_ok built, runIn_bind_error failed]
      simp

/-- Rows that lack nothing each make a resource, in their order. -/
theorem buildRows_fill {rows : List (Keyed Datum)} (suit : ∀ row ∈ rows, Suits t row)
    (typed : g.types[b.target.index]? = some t) (called : context.caller = some id)
    (there : g.resources[id]? = some r) (full : ∀ row ∈ rows, ¬ t.Lacks row) :
    ∃ made, List.Forall₂ (Fills b t r.client) rows made ∧
      runIn (rows.mapM (buildOne b context)) g =
        (.ok (List.range' g.resources.size rows.length),
          { g with resources := g.resources ++ made.toArray }) := by
  induction rows generalizing g with
  | nil => exact ⟨[], .nil, by simp⟩
  | cons row rest ih =>
    obtain ⟨s, fills, built⟩ :=
      (suit row List.mem_cons_self).buildOne_fills typed called there (full row List.mem_cons_self)
    obtain ⟨made, all, others⟩ := ih (g := { g with resources := g.resources.push s })
      (fun row member => suit row (List.mem_cons_of_mem _ member)) typed (there_push there s)
      fun row member => full row (List.mem_cons_of_mem _ member)
    refine ⟨s :: made, .cons fills all, ?_⟩
    rw [List.mapM_cons, runIn_bind_ok built, runIn_bind_ok others]
    simp [List.range'_succ]

/-! ## All of them -/

/-- The resources are of the type of the builder, which is still in the graph and may have gained
identifiers since the builder was made; no source has the name of another, and none a name that
cannot be given. -/
structure Ready (b : Builder) (t : ResourceType) : Prop where
  known : ∀ s ∈ b.sources, s.target ∈ t.identifiers
  unreserved : ∀ name ∈ t.identifiers, name ∉ reservedNames
  distinct : (b.sources.map IdentifierSource.target).Nodup
  unselfish : ∀ s ∈ b.sources, s.target ≠ "self"

namespace Ready

variable (ready : Ready b t)
include ready

private theorem other_than_data {s : IdentifierSource} (member : s ∈ b.sources) :
    s.target ≠ Builder.dataKey :=
  fun same => ready.unreserved _ (ready.known s member) (by simp [same, reservedNames, Builder.dataKey])

private theorem targets_distinct (all : found.map Prod.fst = b.allSources) : found.targets.Nodup := by
  have same : found.targets = b.allSources.map IdentifierSource.target := by
    rw [← all, List.map_map]
    rfl
  rw [same, Builder.allSources, List.map_append]
  cases data : b.dataSource? with
  | none => simpa using ready.distinct
  | some s =>
    rw [Option.toList_some, List.map_singleton, ← List.concat_eq_append]
    refine ready.distinct.concat fun member => ?_
    obtain ⟨other, source, clash⟩ := List.mem_map.mp member
    exact ready.other_than_data source (clash.trans (Builder.target_of_dataSource data))

private theorem suits (all : found.map Prod.fst = b.allSources) (opened : Datum → Datum) (place : Nat) :
    Suits t (found.valuesAt opened place) := by
  have target : ∀ key ∈ Keyed.keys (found.valuesAt opened place),
      (∃ s ∈ b.sources, s.target = key) ∨ key = Builder.dataKey := by
    intro key member
    rw [Findings.keys_valuesAt] at member
    obtain ⟨s, source, rfl⟩ := Findings.source_of_target all member
    rcases List.mem_append.mp source with own | data
    · exact .inl ⟨s, own, rfl⟩
    · exact .inr (Builder.target_of_dataSource (Option.mem_toList.mp data))
  refine ⟨fun key member => ?_, ready.unreserved, fun member => ?_⟩
  · rcases target key member with ⟨s, source, rfl⟩ | data
    · exact .inr (ready.known s source)
    · exact .inl data
  · rcases target _ member with ⟨s, source, same⟩ | data
    · exact ready.unselfish s source same
    · simp [Builder.dataKey] at data

/-- What is made of the values at a place is what is described there. -/
theorem describes (all : found.map Prod.fst = b.allSources) {opened : Datum → Datum} {place : Nat}
    {client : ClientId} {s : Resource} (fills : Fills b t client (found.valuesAt opened place) s) :
    found.Describes opened b t client place s where
  type := fills.type
  client := fills.client
  declared := keys_of_identify fills.identified
  identifiers source v member own := by
    refine ResourceType.given_of_identify fills.identified ?_
    rw [Keyed.get?_erase _ (ready.other_than_data own)]
    exact Findings.get?_valuesAt (ready.targets_distinct all) member
  loaded source v member data := by
    rw [fills.data, ← Builder.target_of_dataSource data]
    exact Findings.get?_valuesAt (ready.targets_distinct all) member
  unloaded none := by
    rw [fills.data, Keyed.get?_eq_none_iff, Findings.keys_valuesAt]
    intro member
    obtain ⟨s, source, same⟩ := Findings.source_of_target all member
    rw [Builder.allSources, none, Option.toList_none, List.append_nil] at source
    exact ready.other_than_data source same
  unreferring := fills.references

end Ready

/-- **What a builder gives.** Let each source of a builder, in turn, give something. Without a
plural source the builder gives one resource, the described one; with one it gives a list of as many
as there are places, each of them the one that is described at its place. Where a described resource
would lack an identifier, and only there, it fails with a fault of identifiers instead and gives
nothing.

The caller's client is never null: a resource is made with a client, and a factory gives one. So all
that is built has the caller's client, and never one from the factory of the target type. -/
theorem build_spreads {ref : TypeRef} {declared : List String} {sources : List IdentifierSource}
    {path : Option String} (made : Builder.make (some ⟨ref, declared⟩) sources path = .ok b)
    (typed : g.types[ref.index]? = some t) (grown : ∀ name ∈ declared, name ∈ t.identifiers)
    (unreserved : ∀ name ∈ t.identifiers, name ∉ reservedNames)
    (distinct : (b.sources.map IdentifierSource.target).Nodup)
    (unselfish : ∀ s ∈ b.sources, s.target ≠ "self") (called : context.caller = some id)
    (there : g.resources[id]? = some r) (extracted : Extracts context g found mid)
    (all : found.map Prod.fst = b.allSources) :
    (b.isPlural = false →
      (found.LeavesNull mid.store.opened t 0 → ∃ name,
        runIn (build b context) g = (.error (.identifier (.missing t.name name)), mid)) ∧
      (¬ found.LeavesNull mid.store.opened t 0 → ∃ s, found.Describes mid.store.opened b t r.client 0 s ∧
        runIn (build b context) g =
          (.ok (.one mid.resources.size), { mid with resources := mid.resources.push s }))) ∧
    (b.isPlural = true → ∃ n, found.Extent mid.store.opened n ∧
      ((∃ place < n, found.LeavesNull mid.store.opened t place) → ∃ name more,
        runIn (build b context) g =
          (.error (.identifier (.missing t.name name)),
            { mid with resources := mid.resources ++ more })) ∧
      ((∀ place < n, ¬ found.LeavesNull mid.store.opened t place) → ∃ members,
        List.Forall₂ (found.Describes mid.store.opened b t r.client) (List.range n) members ∧
        runIn (build b context) g = (.ok (.several mid.lists (List.range' mid.resources.size n)),
          { mid with resources := mid.resources ++ members.toArray, lists := mid.lists + 1 }))) := by
  obtain ⟨target, completed, -, -⟩ := Builder.of_make made
  obtain ⟨-, -, -, -, known, -⟩ := Builder.of_complete completed
  have ready : Ready b t := ⟨fun s member => grown _ (known s member), unreserved, distinct, unselfish⟩
  have apart := ready.targets_distinct all
  have change := extracted.change
  obtain ⟨r', there, remains⟩ := change.resources id r there
  rw [← remains.client]
  have typed : mid.types[b.target.index]? = some t := by rw [target, change.types, typed]
  have built : runIn (build b context) g = _ := runIn_bind_ok (runIn_extractAll extracted all apart)
  refine ⟨fun single => ?_, fun plural => ?_⟩
  · rw [single, if_neg Bool.false_ne_true,
      Findings.valuesAt_single mid.store.opened 0 all single] at built
    have suits := ready.suits all mid.store.opened 0
    simp only [Findings.leavesNull_iff apart]
    refine ⟨fun lacks => ?_, fun full => ?_⟩
    · obtain ⟨name, failed⟩ := suits.buildOne_lacks typed called there lacks
      exact ⟨name, by rw [built, runIn_bind_error failed]⟩
    · obtain ⟨s, fills, one⟩ := suits.buildOne_fills typed called there full
      exact ⟨s, ready.describes all fills, by rw [built, runIn_bind_ok one, runIn_pure]⟩
  · obtain ⟨n, extent, rows⟩ := Findings.rows_eq mid.store.opened apart all plural
    rw [plural, if_pos rfl, runIn_bind_ok (runIn_get mid), rows] at built
    have suit : ∀ row ∈ (List.range n).map (found.valuesAt mid.store.opened), Suits t row := by
      intro row member
      obtain ⟨place, -, rfl⟩ := List.mem_map.mp member
      exact ready.suits all mid.store.opened place
    refine ⟨n, extent, fun ⟨place, inside, null⟩ => ?_, fun full => ?_⟩
    · obtain ⟨name, more, failed⟩ := buildRows_lack suit typed called there
        ⟨_, List.mem_map_of_mem (List.mem_range.mpr inside), (Findings.leavesNull_iff apart).mp null⟩
      exact ⟨name, more, by rw [built, runIn_bind_error failed]⟩
    · obtain ⟨members, fill, gave⟩ := buildRows_fill suit typed called there fun row member => by
        obtain ⟨place, inside, rfl⟩ := List.mem_map.mp member
        exact mt (Findings.leavesNull_iff apart).mpr (full place (List.mem_range.mp inside))
      refine ⟨members, ?_, ?_⟩
      · exact (List.forall₂_map_left_iff.mp fill).imp fun _ _ => ready.describes all
      · rw [built, runIn_bind_ok gave, List.length_map, List.length_range]
        rfl

/-- Sources of a name for each user and of one team for all. -/
def crewSources : List IdentifierSource :=
  [⟨.responsePath, "Names[]", "name"⟩, ⟨.identifier, "team", "team"⟩]

/-- A builder of users with their mails. -/
def crewBuilder : Builder := ⟨⟨0, "User"⟩, crewSources, some "Mails[]"⟩

/-- A user, and a response with two names and one mail. -/
def crew : Graph where
  store := { cells := #[.data (.object [("Names", .shared ⟨1⟩), ("Mails", .shared ⟨2⟩)]),
    .data (.list [.str "ann", .str "bob"]), .data (.list [.str "a"])] }
  types := #[{ name := "User", identifiers := ["name", "team"] }]
  clients := #[.prepared {}]
  resources := #[
    { type := ⟨0, "User"⟩, identifiers := [("name", .str "dora"), ("team", .str "red")], client := 0 }]

/-- The user was answered with the response. -/
def crewCall : Context := { caller := some 0, response := some ⟨.shared ⟨0⟩, .null⟩ }

/-- The graph after the names were found. -/
def namedCrew : Graph := (runIn (extract crewCall ⟨.responsePath, "Names[]", "name"⟩) crew).2

/-- The graph after the mails were found too. -/
def mailedCrew : Graph := (runIn (extract crewCall ⟨.responsePath, "Mails[]", "data"⟩) namedCrew).2

/-- What the sources found. -/
def crewFindings : Findings := [(⟨.responsePath, "Names[]", "name"⟩, .shared ⟨4⟩),
  (⟨.identifier, "team", "team"⟩, .str "red"), (⟨.responsePath, "Mails[]", "data"⟩, .shared ⟨6⟩)]

private theorem extracts_crew : Extracts crewCall crew crewFindings mailedCrew :=
  have names : runIn (extract crewCall ⟨.responsePath, "Names[]", "name"⟩) crew =
      (.ok (.shared ⟨4⟩), namedCrew) :=
    Prod.ext (by cbv) rfl
  have team : runIn (extract crewCall ⟨.identifier, "team", "team"⟩) namedCrew =
      (.ok (.str "red"), namedCrew) := by
    cbv
  have mails : runIn (extract crewCall ⟨.responsePath, "Mails[]", "data"⟩) namedCrew =
      (.ok (.shared ⟨6⟩), mailedCrew) := Prod.ext (by cbv) rfl
  .cons names (.cons team (.cons mails (.nil _)))

/-- Two users are built, of the one team; the second has no mail, and counts as loaded all the same. -/
theorem build_spreads_crew :
    ∃ members, List.Forall₂ (crewFindings.Describes mailedCrew.store.opened crewBuilder
        { name := "User", identifiers := ["name", "team"] } 0) [0, 1] members ∧
      runIn (build crewBuilder crewCall) crew = (.ok (.several 0 [1, 2]),
        { mailedCrew with resources := mailedCrew.resources ++ members.toArray, lists := 1 }) := by
  have made : Builder.make (some ⟨⟨0, "User"⟩, ["name", "team"]⟩) crewSources (some "Mails[]") =
      .ok crewBuilder := by cbv
  have typed : crew.types[0]? = some { name := "User", identifiers := ["name", "team"] } := rfl
  obtain ⟨-, spread⟩ :=
    build_spreads made typed (fun _ declared => declared) (by decide) (by decide) (by decide)
    rfl rfl extracts_crew rfl
  obtain ⟨n, extent, -, gives⟩ := spread (by cbv)
  have names : Builder.elements mailedCrew.store.opened (.shared ⟨4⟩) =
      [.str "ann", .str "bob"] := by cbv
  have mails : Builder.elements mailedCrew.store.opened (.shared ⟨6⟩) = [.str "a"] := by cbv
  have lists : ∀ s v, (s, v) ∈ crewFindings → s.isPlural = true → v = .shared ⟨4⟩ ∨ v = .shared ⟨6⟩ := by
    intro s v member plural
    simp only [crewFindings, List.mem_cons, Prod.mk.injEq, List.not_mem_nil, or_false] at member
    rcases member with ⟨-, rfl⟩ | ⟨rfl, -⟩ | ⟨-, rfl⟩
    · exact .inl rfl
    · simp [IdentifierSource.isPlural, SourceKind.isPath] at plural
    · exact .inr rfl
  have two : n = 2 := by
    obtain ⟨bounds, s, v, member, plural, reached⟩ := extent.longest fun s v member plural => by
      rcases lists s v member plural with rfl | rfl <;> simp [names, mails]
    have first := bounds ⟨.responsePath, "Names[]", "name"⟩ (.shared ⟨4⟩) List.mem_cons_self (by cbv)
    rw [names] at first
    rcases lists s v member plural with rfl | rfl
    · rw [← reached, names]
      rfl
    · rw [← reached, mails] at first
      simp at first
  subst two
  obtain ⟨members, described, built⟩ := gives fun place inside => by
    rintro ⟨name, declared, null⟩
    rcases List.mem_pair.mp declared with rfl | rfl
    · have lacking := null _ _ List.mem_cons_self rfl
      rw [IdentifierSource.portion, if_pos (by cbv), names] at lacking
      interval_cases place <;> cases lacking
    · have lacking := null _ _ (List.mem_cons_of_mem _ List.mem_cons_self) rfl
      cases lacking
  exact ⟨members, described, built⟩

end Act

end ResourceGraph
