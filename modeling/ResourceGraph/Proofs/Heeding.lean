import ResourceGraph.Proofs.Kinship
import ResourceGraph.Proofs.Spreading

/-!
Which source an identifier comes from. Sources are used one after another, and what a source gives
replaces what an earlier one gave for the same identifier. So of all that was found for an
identifier the last counts; and it counts as a list with an element for each resource as soon as one
source of the identifier is plural. A source that is the only one for its identifier is heeded by
every resource that is built. That two sources give one identifier is not refused when a builder is
made.
-/

namespace ResourceGraph

open ResourceGraph.Graph

/-- No other source of the builder gives the identifier. -/
def Builder.Sole (b : Builder) (s : IdentifierSource) : Prop :=
  (b.sources.filter fun other => other.target == s.target) = [s]

instance (b : Builder) (s : IdentifierSource) : Decidable (b.Sole s) :=
  inferInstanceAs (Decidable (_ = [s]))

/-- What a builder gives of a value to the resource at a place: all of it, or the element at the
place if one of the sources of the identifier is plural. -/
def Builder.portion (b : Builder) (opened : Datum → Datum) (target : String) (v : Datum)
    (place : Nat) : Datum :=
  if target ∈ b.pluralTargets then (Builder.elements opened v)[place]?.getD .null else v

namespace Findings

variable (found : Findings)

/-- What was found last for an identifier, and the source that gave it. -/
def last? (target : String) : Option (IdentifierSource × Datum) :=
  (found.filter fun entry => entry.1.target == target).getLast?

/-- All that was found, by target, a later value in place of an earlier one. -/
def values : Keyed Datum := Keyed.ofList (found.map fun entry => (entry.1.target, entry.2))

/-- The resource at a place has what the source gives it there, and that is not null. -/
def Heeds (opened : Datum → Datum) (s : IdentifierSource) (v : Datum) (place : Nat)
    (r : Resource) : Prop :=
  s.portion opened v place ≠ .null ∧ Keyed.get? r.identifiers s.target = some (s.portion opened v place)

end Findings

/-! ## Values -/

/-- The last entry of a key is found after a merge, and what was there before if there is none. -/
theorem Keyed.get?_merge_last {α : Type} (m : Keyed α) (n : List (String × α)) (key : String) :
    get? (merge m n) key =
      ((n.filter fun entry => entry.1 == key).getLast?.map Prod.snd).or (get? m key) := by
  induction n generalizing m with
  | nil => rfl
  | cons entry rest ih =>
    obtain ⟨k, a⟩ := entry
    change get? (merge (put m k a) rest) key = _
    rw [ih (put m k a)]
    by_cases here : k = key
    · subst here
      cases later : (rest.filter fun entry => entry.1 == k).getLast? <;>
        simp [List.getLast?_cons, later]
    · simp [here, get?_put_of_ne m a (Ne.symm here)]

/-- A row has a portion of each value. -/
theorem Builder.get?_row_portion (b : Builder) (opened : Datum → Datum) (values : Keyed Datum)
    (place : Nat)
    (target : String) : Keyed.get? (row opened b.pluralTargets values place) target =
      (Keyed.get? values target).map fun v => b.portion opened target v place :=
  get?_row_eq values target

/-- Without plural sources the only row has the values as they are. -/
theorem Builder.row_of_single {b : Builder} (single : b.isPlural = false) (opened : Datum → Datum)
    (values : Keyed Datum) (place : Nat) : row opened b.pluralTargets values place = values := by
  have none : b.pluralTargets = [] := by
    rw [isPlural, List.any_eq_false] at single
    simpa [pluralTargets] using single
  simp [row, none]

namespace Findings

variable {found : Findings} {b : Builder} {s : IdentifierSource} {v : Datum} {opened : Datum → Datum}
  {place : Nat}

/-- The last value that was found for an identifier is the one that is kept. -/
theorem get?_values (found : Findings) (target : String) :
    Keyed.get? found.values target = (found.last? target).map Prod.snd := by
  rw [values, Keyed.ofList, Keyed.get?_merge_last, List.filter_map, List.getLast?_map, Option.map_map]
  exact Option.or_none

/-- The source of the data gives no identifier, so the only source of an identifier is so among all
of them. -/
theorem filter_of_sole (sole : b.Sole s) (other : s.target ≠ Builder.dataKey) :
    (b.allSources.filter fun one => one.target == s.target) = [s] := by
  have data : (b.dataSource?.toList.filter fun one => one.target == s.target) = [] := by
    refine List.filter_eq_nil_iff.mpr fun data member => ?_
    rw [Builder.target_of_dataSource (Option.mem_toList.mp member)]
    simpa using other.symm
  rw [Builder.allSources, List.filter_append, sole, data, List.append_nil]

/-- What the only source of an identifier found is what was found last for it. -/
theorem last?_of_sole (all : found.map Prod.fst = b.allSources) (sole : b.Sole s)
    (other : s.target ≠ Builder.dataKey) (member : (s, v) ∈ found) :
    found.last? s.target = some (s, v) := by
  have sources : (found.filter fun entry => entry.1.target == s.target).map Prod.fst = [s] := by
    rw [← filter_of_sole sole other, ← all, List.filter_map]
    rfl
  obtain ⟨entry, only, -⟩ := List.map_eq_singleton_iff.mp sources
  have kept : (s, v) ∈ found.filter fun entry => entry.1.target == s.target :=
    List.mem_filter.mpr ⟨member, beq_self_eq_true _⟩
  rw [only, List.mem_singleton] at kept
  rw [last?, only, kept]
  rfl

/-- The builder gives of a value what its only source gives. -/
theorem portion_of_sole (sole : b.Sole s) (other : s.target ≠ Builder.dataKey) :
    b.portion opened s.target v place = s.portion opened v place := by
  have only : ∀ one, one ∈ b.allSources ∧ one.target = s.target ↔ one = s := by
    intro one
    have listed := congrArg (one ∈ ·) (filter_of_sole sole other)
    simpa using listed
  have plural : s.target ∈ b.pluralTargets ↔ s.isPlural = true := by
    simp only [Builder.pluralTargets, List.mem_map, List.mem_filter]
    constructor
    · rintro ⟨one, ⟨member, plural⟩, same⟩
      rwa [← (only one).mp ⟨member, same⟩]
    · intro plural
      exact ⟨s, ⟨((only s).mpr rfl).1, plural⟩, rfl⟩
  by_cases many : s.isPlural = true
  · rw [Builder.portion, if_pos (plural.mpr many), IdentifierSource.portion, if_pos many]
  · rw [Builder.portion, if_neg (mt plural.mp many), IdentifierSource.portion, if_neg many]

end Findings

namespace Act

variable {b : Builder} {context : Context} {g h : Graph} {sources : List IdentifierSource}

/-! ## Building -/

/-- What is kept of sources is what each of them gave, in turn. -/
theorem extracts_of_drawAll {before values : Keyed Datum}
    (ran : runIn (sources.foldlM (drawOne context) before) g = (.ok values, h)) :
    ∃ found : Findings, Extracts context g found h ∧ found.map Prod.fst = sources ∧
      values = Keyed.merge before (found.map fun entry => (entry.1.target, entry.2)) := by
  induction sources generalizing before g with
  | nil =>
    cases ran
    exact ⟨[], .nil _, rfl, rfl⟩
  | cons s rest ih =>
    rw [List.foldlM_cons] at ran
    obtain ⟨next, mid, first, others⟩ := bind_gives.mp ran
    obtain ⟨v, last, extracted, put⟩ := bind_gives.mp first
    cases put
    obtain ⟨found, extracts, same, rfl⟩ := ih others
    exact ⟨(s, v) :: found, .cons extracted extracts, by rw [List.map_cons, same], rfl⟩

/-- All sources are extracted exactly if each of them gives something in turn. -/
theorem extractAll_iff {values : Keyed Datum} : runIn (extractAll b context) g = (.ok values, h) ↔
    ∃ found : Findings, Extracts context g found h ∧ found.map Prod.fst = b.allSources ∧
      values = found.values := by
  constructor
  · exact extracts_of_drawAll
  · rintro ⟨found, extracts, all, rfl⟩
    unfold extractAll
    rw [← all]
    exact extracts.drawAll []

/-- Each resource that is built has what its row has, and the row comes from what the sources found. -/
theorem build_gives_rows {built : Built} (ran : runIn (build b context) g = (.ok built, h)) :
    ∃ (found : Findings) (mid : Graph), Extracts context g found mid ∧
      found.map Prod.fst = b.allSources ∧
      ∀ (place : Nat) id, built.members[place]? = some id → ∃ r, h.resources[id]? = some r ∧
        OfRow (Builder.row mid.store.opened b.pluralTargets found.values place) r := by
  unfold build at ran
  obtain ⟨values, mid, extracted, making⟩ := bind_gives.mp ran
  obtain ⟨found, extracts, all, rfl⟩ := extractAll_iff.mp extracted
  refine ⟨found, mid, extracts, all, fun place id there => ?_⟩
  by_cases plural : b.isPlural = true
  · rw [if_pos plural] at making
    obtain ⟨g', mid', same, making⟩ := bind_gives.mp making
    cases same
    obtain ⟨members, last, rows, making⟩ := bind_gives.mp making
    obtain ⟨-, -, each⟩ := buildRows_gives rows
    -- Only a serial for the list is taken after the rows.
    cases making
    obtain ⟨row, r, at_, has, fits⟩ := each place id there
    rw [(Builder.of_rows at_).1] at fits
    exact ⟨r, has, fits⟩
  · rw [Bool.not_eq_true] at plural
    rw [plural, if_neg Bool.false_ne_true] at making
    obtain ⟨made, last, one, making⟩ := bind_gives.mp making
    cases making
    obtain ⟨r, fits, -, rfl, rfl⟩ := buildOne_gives one
    obtain ⟨rfl, rfl⟩ : place = 0 ∧ id = mid.resources.size := by
      cases place with
      | zero => exact ⟨rfl, (Option.some.inj there).symm⟩
      | succ place => cases there
    refine ⟨r, Array.getElem?_push_size, ?_⟩
    rwa [Builder.row_of_single plural]

/-- **Sources are heeded.** Let a builder be made, for a type with no identifier named like the
data, and let it build. It uses all sources that it was made with, each of them once, in order. Then
every resource that is built has under each identifier what the last of its sources found: the
element at the place of the resource if one of the sources of the identifier is plural, and all of
it otherwise. So it has what a source gives it, and that is not null, whenever the source is the
only one for its identifier. -/
theorem build_heeds {ref : TypeRef} {declared : List String} {path : Option String} {built : Built}
    (made : Builder.make (some ⟨ref, declared⟩) sources path = .ok b) (free : Builder.dataKey ∉ declared)
    (ran : runIn (build b context) g = (.ok built, h)) :
    sources <+: b.sources ∧ ∃ (found : Findings) (mid : Graph),
      Extracts context g found mid ∧ found.map Prod.fst = b.allSources ∧
      ∀ (place : Nat) id, built.members[place]? = some id → ∃ r, h.resources[id]? = some r ∧
        (∀ s v, (s, v) ∈ found → s ∈ b.sources → b.Sole s →
          Findings.Heeds mid.store.opened s v place r) ∧
        ∀ name ∈ declared, ∃ s v, found.last? name = some (s, v) ∧
          Keyed.get? r.identifiers name = some (b.portion mid.store.opened name v place) := by
  obtain ⟨-, completed, -⟩ := Builder.of_make made
  obtain ⟨added, same, -, -, known, covered⟩ := Builder.of_complete completed
  obtain ⟨found, mid, extracts, all, each⟩ := build_gives_rows ran
  refine ⟨⟨added, same.symm⟩, found, mid, extracts, all, fun place id there => ?_⟩
  obtain ⟨r, has, fits, -⟩ := each place id there
  have given : ∀ name ∈ declared, ∀ v, (found.last? name).map Prod.snd = some v →
      b.portion mid.store.opened name v place ≠ .null ∧
        Keyed.get? r.identifiers name = some (b.portion mid.store.opened name v place) := by
    intro name member v last
    apply fits name _ fun data => free (data ▸ member)
    rw [Builder.get?_row_portion, Findings.get?_values, last, Option.map_some]
  refine ⟨r, has, fun s v member own sole => ?_, fun name member => ?_⟩
  · have other : s.target ≠ Builder.dataKey := fun data => free (data ▸ known s own)
    have last := Findings.last?_of_sole all sole other member
    have heeded := given s.target (known s own) v (by rw [last]; rfl)
    rwa [Findings.portion_of_sole sole other] at heeded
  · obtain ⟨s, own, rfl⟩ := covered name member
    have listed : s ∈ found.map Prod.fst := all ▸ List.mem_append_left _ own
    obtain ⟨entry, there, rfl⟩ := List.mem_map.mp listed
    cases last : found.last? entry.1.target with
    | none =>
      have absent := List.filter_eq_nil_iff.mp (List.getLast?_eq_none_iff.mp last) entry there
      simp at absent
    | some final => exact ⟨final.1, final.2, rfl, (given _ member final.2 (by rw [last]; rfl)).2⟩

/-- Both users of the crew have the name that was found for them, and the one team. -/
theorem build_heeds_crew : ∃ (found : Findings) (mid : Graph) (h : Graph),
    Extracts crewCall crew found mid ∧
      runIn (build crewBuilder crewCall) crew = (.ok (.several 0 [1, 2]), h) ∧
      ∀ (place : Nat) id, [1, 2][place]? = some id → ∃ r, h.resources[id]? = some r ∧
        ∀ s v, (s, v) ∈ found → s ∈ crewSources → Findings.Heeds mid.store.opened s v place r := by
  have made : Builder.make (some ⟨⟨0, "User"⟩, ["name", "team"]⟩) crewSources (some "Mails[]") =
      .ok crewBuilder := by cbv
  have ran : runIn (build crewBuilder crewCall) crew =
      (.ok (.several 0 [1, 2]), (runIn (build crewBuilder crewCall) crew).2) := Prod.ext (by cbv) rfl
  obtain ⟨-, found, mid, extracts, -, each⟩ := build_heeds made (by decide) ran
  refine ⟨found, mid, _, extracts, ran, fun place id there => ?_⟩
  obtain ⟨r, has, heeds, -⟩ := each place id there
  have sole : ∀ s ∈ crewSources, crewBuilder.Sole s := by
    intro s member
    rcases List.mem_pair.mp member with rfl | rfl <;> decide
  exact ⟨r, has, fun s v member own => heeds s v member own (sole s own)⟩

/-- Sources of a name from the name and from the team of the caller. -/
def doubledSources : List IdentifierSource :=
  [⟨.identifier, "name", "name"⟩, ⟨.identifier, "team", "name"⟩, ⟨.identifier, "team", "team"⟩]

/-- Two sources for a name make a builder all the same, and the first of them is ignored: the user
that is built is called as the team. -/
theorem doubled_ignored :
    ∃ b h r, Builder.make (some ⟨⟨0, "User"⟩, ["name", "team"]⟩) doubledSources none = .ok b ∧
    (runIn (extract crewCall ⟨.identifier, "name", "name"⟩) crew).1 = .ok (.str "dora") ∧
    runIn (build b crewCall) crew = (.ok (.one 1), h) ∧ h.resources[1]? = some r ∧
    Keyed.get? r.identifiers "name" = some (.str "red") :=
  ⟨⟨⟨0, "User"⟩, doubledSources, none⟩, _, _, by cbv, by cbv, Prod.ext (by cbv) rfl, by cbv, by cbv⟩

end Act

end ResourceGraph
