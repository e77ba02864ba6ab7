import ResourceGraph.Proofs.StoreGrowth

/-!
Regions of a store: places that hold no places but their own. Work that is given only what a region
holds changes nothing outside it, and gives only what it holds and what was added to it. So data
that lies in a region of its own spells out the same tree ever after.
-/

namespace ResourceGraph

namespace Value

variable {ρ σ : Type} {P Q : ρ → Prop}

mutual

/-- Every share in the value has the property, keys included. -/
def Every (P : ρ → Prop) : Value ρ → Prop
  | .list items => EveryItem P items
  | .object fields => EveryField P fields
  | .table entries => EveryEntry P entries
  | .shared share => P share
  | _ => True

/-- Every share in the elements has the property. -/
def EveryItem (P : ρ → Prop) : List (Value ρ) → Prop
  | [] => True
  | v :: rest => v.Every P ∧ EveryItem P rest

/-- Every share in the members has the property. -/
def EveryField (P : ρ → Prop) : List (String × Value ρ) → Prop
  | [] => True
  | (_, v) :: rest => v.Every P ∧ EveryField P rest

/-- Every share in the entries has the property. -/
def EveryEntry (P : ρ → Prop) : List (Value ρ × Value ρ) → Prop
  | [] => True
  | (key, v) :: rest => (key.Every P ∧ v.Every P) ∧ EveryEntry P rest

end

private theorem everyItem_iff {items : List (Value ρ)} : EveryItem P items ↔ ∀ v ∈ items, v.Every P := by
  induction items with
  | nil => simp [EveryItem]
  | cons v rest ih => simp [EveryItem, ih]

private theorem everyField_iff {fields : List (String × Value ρ)} :
    EveryField P fields ↔ ∀ entry ∈ fields, entry.2.Every P := by
  induction fields with
  | nil => simp [EveryField]
  | cons entry rest ih => simp [EveryField, ih]

private theorem everyEntry_iff {entries : List (Value ρ × Value ρ)} :
    EveryEntry P entries ↔ ∀ entry ∈ entries, entry.1.Every P ∧ entry.2.Every P := by
  induction entries with
  | nil => simp [EveryEntry]
  | cons entry rest ih => simp [EveryEntry, ih]

@[simp]
theorem every_list {items : List (Value ρ)} : (list items).Every P ↔ ∀ v ∈ items, v.Every P := by
  rw [Every, everyItem_iff]

@[simp]
theorem every_object {fields : List (String × Value ρ)} :
    (object fields).Every P ↔ ∀ entry ∈ fields, entry.2.Every P := by
  rw [Every, everyField_iff]

@[simp]
theorem every_table {entries : List (Value ρ × Value ρ)} :
    (table entries).Every P ↔ ∀ entry ∈ entries, entry.1.Every P ∧ entry.2.Every P := by
  rw [Every, everyEntry_iff]

@[simp]
theorem every_shared {share : ρ} : (shared share).Every P ↔ P share := by rw [Every]

mutual

theorem Every.mono (more : ∀ share, P share → Q share) {v : Value ρ} (every : v.Every P) :
    v.Every Q := by
  cases v with
  | list items => exact EveryItem.mono more every
  | object fields => exact EveryField.mono more every
  | table entries => exact EveryEntry.mono more every
  | shared share => exact more share every
  | _ => trivial

theorem EveryItem.mono (more : ∀ share, P share → Q share) {items : List (Value ρ)}
    (every : EveryItem P items) : EveryItem Q items := by
  cases items with
  | nil => trivial
  | cons v rest => exact ⟨Every.mono more every.1, EveryItem.mono more every.2⟩

theorem EveryField.mono (more : ∀ share, P share → Q share) {fields : List (String × Value ρ)}
    (every : EveryField P fields) : EveryField Q fields := by
  cases fields with
  | nil => trivial
  | cons entry rest => exact ⟨Every.mono more every.1, EveryField.mono more every.2⟩

theorem EveryEntry.mono (more : ∀ share, P share → Q share) {entries : List (Value ρ × Value ρ)}
    (every : EveryEntry P entries) : EveryEntry Q entries := by
  cases entries with
  | nil => trivial
  | cons entry rest =>
    exact ⟨⟨Every.mono more every.1.1, Every.mono more every.1.2⟩, EveryEntry.mono more every.2⟩

end

mutual

/-- A plain tree holds no share. -/
theorem every_ofJson (tree : Json) : (ofJson tree : Value ρ).Every P := by
  cases tree with
  | list items => exact everyItem_ofJson items
  | object fields => exact everyField_ofJson fields
  | table entries => exact everyEntry_ofJson entries
  | shared share => exact share.elim
  | _ => trivial

theorem everyItem_ofJson (items : List Json) :
    EveryItem P (bindItems (σ := ρ) Empty.elim items) := by
  cases items with
  | nil => trivial
  | cons v rest => exact ⟨every_ofJson v, everyItem_ofJson rest⟩

theorem everyField_ofJson (fields : List (String × Json)) :
    EveryField P (bindFields (σ := ρ) Empty.elim fields) := by
  cases fields with
  | nil => trivial
  | cons entry rest => exact ⟨every_ofJson entry.2, everyField_ofJson rest⟩

theorem everyEntry_ofJson (entries : List (Json × Json)) :
    EveryEntry P (bindEntries (σ := ρ) Empty.elim entries) := by
  cases entries with
  | nil => trivial
  | cons entry rest =>
    exact ⟨⟨every_ofJson entry.1, every_ofJson entry.2⟩, everyEntry_ofJson rest⟩

end

mutual

/-- What the shares of a value stand for is all that its tree depends on. -/
theorem bind?_congr {f g : ρ → Option (Value σ)} {v : Value ρ}
    (every : v.Every fun share => f share = g share) : v.bind? f = v.bind? g := by
  cases v with
  | list items => simp only [bind?, bindItems?_congr every]
  | object fields => simp only [bind?, bindFields?_congr every]
  | table entries => simp only [bind?, bindEntries?_congr every]
  | shared share => exact every
  | _ => rfl

theorem bindItems?_congr {f g : ρ → Option (Value σ)} {items : List (Value ρ)}
    (every : EveryItem (fun share => f share = g share) items) :
    bindItems? f items = bindItems? g items := by
  cases items with
  | nil => rfl
  | cons v rest => simp only [bindItems?, bind?_congr every.1, bindItems?_congr every.2]

theorem bindFields?_congr {f g : ρ → Option (Value σ)} {fields : List (String × Value ρ)}
    (every : EveryField (fun share => f share = g share) fields) :
    bindFields? f fields = bindFields? g fields := by
  cases fields with
  | nil => rfl
  | cons entry rest =>
    simp only [bindFields?, bind?_congr every.1, bindFields?_congr every.2]

theorem bindEntries?_congr {f g : ρ → Option (Value σ)} {entries : List (Value ρ × Value ρ)}
    (every : EveryEntry (fun share => f share = g share) entries) :
    bindEntries? f entries = bindEntries? g entries := by
  cases entries with
  | nil => rfl
  | cons entry rest =>
    simp only [bindEntries?, bind?_congr every.1.1, bind?_congr every.1.2,
      bindEntries?_congr every.2]

end

end Value

namespace Store

variable {α β : Type}

/-- The places are there, and hold no places but their own. -/
structure Region (s : Store) (region : Share → Prop) : Prop where
  there : ∀ share, region share → ∃ c, s.cell? share = some c
  closed : ∀ share content, region share → s.cell? share = some (.data content) →
    content.Every region

/-- Data in a region whose places are kept as they are spells out what it did. -/
theorem treeTo_of_region {s t : Store} {region : Share → Prop} (within : s.Region region)
    (kept : ∀ share, region share → t.cell? share = s.cell? share) (depth : Nat) {v : Datum}
    (inside : v.Every region) : t.treeTo depth v = s.treeTo depth v := by
  induction depth generalizing v with
  | zero => rfl
  | succ depth ih =>
    unfold treeTo
    refine Value.bind?_congr (inside.mono fun share member => ?_)
    rw [kept share member]
    split
    · next content found => exact ih (within.closed share content member found)
    · rfl

theorem Region.of_kept {s t : Store} {region : Share → Prop} (within : s.Region region)
    (kept : ∀ share, region share → t.cell? share = s.cell? share) : t.Region region := by
  refine ⟨fun share member => ?_, fun share content member found => ?_⟩
  · rw [kept share member]
    exact within.there share member
  · rw [kept share member] at found
    exact within.closed share content member found

theorem Region.of_grows {s t : Store} {region : Share → Prop} (within : s.Region region)
    (grows : Grows s t) : t.Region region ∧ ∀ share, region share → t.cell? share = s.cell? share := by
  have kept : ∀ share, region share → t.cell? share = s.cell? share := by
    intro share member
    obtain ⟨c, found⟩ := within.there share member
    rw [found]
    exact grows share.cell c found
  exact ⟨within.of_kept kept, kept⟩

/-! ## Work inside a region -/

/-- From one store to the next, only places of the region changed, and it took in only what was
added. -/
structure Widens (s : Store) (region : Share → Prop) (t : Store) (wider : Share → Prop) : Prop where
  within : t.Region wider
  keeps : ∀ share, region share → wider share
  added : ∀ share, wider share → region share ∨ s.cells.size ≤ share.cell
  size : s.cells.size ≤ t.cells.size
  outside : ∀ share c, ¬ region share → s.cell? share = some c → t.cell? share = some c
  learns : s.Learns t

variable {s t u : Store} {region wider widest : Share → Prop}

theorem lt_size_of_cell? {share : Share} {c : Cell} (found : s.cell? share = some c) :
    share.cell < s.cells.size := (Array.getElem?_eq_some_iff.mp found).1

theorem Widens.refl (within : s.Region region) : Widens s region s region :=
  ⟨within, fun _ member => member, fun _ member => .inl member, Nat.le_refl _, fun _ _ _ found => found,
    learns_lasting.refl s⟩

theorem Widens.trans (first : Widens s region t wider) (second : Widens t wider u widest) :
    Widens s region u widest := by
  refine ⟨second.within, fun share member => second.keeps share (first.keeps share member), ?_,
    Nat.le_trans first.size second.size, ?_, learns_lasting.trans first.learns second.learns⟩
  · intro share member
    rcases second.added share member with before | later
    · exact first.added share before
    · exact .inr (Nat.le_trans first.size later)
  · intro share c outside found
    refine second.outside share c (fun member => ?_) (first.outside share c outside found)
    rcases first.added share member with before | later
    · exact outside before
    · exact absurd (lt_size_of_cell? found) (Nat.not_lt.mpr later)

/-- To add to a store, and to read expressions, widens no region. -/
theorem Widens.of_grows (within : s.Region region) (grows : Grows s t) (learns : s.Learns t) :
    Widens s region t region := by
  refine ⟨(within.of_grows grows).1, fun _ member => member, fun _ member => .inl member, ?_,
    fun share c _ found => grows share.cell c found, learns⟩
  by_contra fewer
  have last := grows t.cells.size _ (Array.getElem?_eq_getElem (Nat.lt_of_not_le fewer))
  rw [Array.getElem?_eq_none (Nat.le_refl _)] at last
  cases last

/-- What a datum stands for is there, and lies outside a region. -/
def Beyond (s : Store) (region : Share → Prop) (v : Datum) : Prop :=
  ∀ share, v = .shared share → ¬ region share ∧ ∃ c, s.cell? share = some c

/-- What lies outside a region stays outside of it, and as it was. -/
theorem Widens.beyond (widens : Widens s region t wider) {v : Datum} (beyond : s.Beyond region v) :
    t.Beyond wider v ∧ t.opened v = s.opened v := by
  cases v with
  | shared share =>
    obtain ⟨outside, c, found⟩ := beyond share rfl
    have kept := widens.outside share c outside found
    constructor
    · rintro _ ⟨⟩
      refine ⟨fun member => ?_, c, kept⟩
      rcases widens.added share member with before | new
      · exact outside before
      · exact absurd (lt_size_of_cell? found) (Nat.not_lt.mpr new)
    · rw [opened, opened, kept, found]
  | _ => exact ⟨fun _ same => (by cases same), rfl⟩

/-- The work, given only what a region holds, widens it, and gives what the wider one holds. -/
def StaysIn (region : Share → Prop) (holds : (Share → Prop) → α → Prop) (s : Store)
    (work : StateM Store α) : Prop :=
  ∃ wider, Widens s region (work.run s).2 wider ∧ holds wider (work.run s).1

theorem StaysIn.pure {holds : (Share → Prop) → α → Prop} {a : α} (within : s.Region region)
    (held : holds region a) : StaysIn region holds s (Pure.pure a) := ⟨region, .refl within, held⟩

theorem StaysIn.bind {holds : (Share → Prop) → α → Prop} {gives : (Share → Prop) → β → Prop}
    {work : StateM Store α} {next : α → StateM Store β} (first : StaysIn region holds s work)
    (rest : ∀ a t wider, Widens s region t wider → holds wider a → StaysIn wider gives t (next a)) :
    StaysIn region gives s (work >>= next) := by
  obtain ⟨wider, widens, held⟩ := first
  obtain ⟨widest, further, given⟩ := rest _ _ wider widens held
  exact ⟨widest, widens.trans further, given⟩

theorem StaysIn.get {holds : (Share → Prop) → α → Prop} {next : Store → StateM Store α}
    (rest : StaysIn region holds s (next s)) : StaysIn region holds s (MonadState.get >>= next) := rest

/-- What a region holds of a datum. -/
abbrev Holds (region : Share → Prop) (v : Datum) : Prop := v.Every region

private theorem keepCell_staysIn {cell : Cell} (within : s.Region region)
    (held : ∀ content, cell = .data content → content.Every region) :
    StaysIn region Holds s (keepCell cell) := by
  refine ⟨fun share => region share ∨ share.cell = s.cells.size,
    ⟨⟨?_, ?_⟩, ?_, ?_, ?_, ?_, fun _ _ found => .inl found⟩, ?_⟩
  · intro share member
    change ∃ c, (s.cells.push cell)[share.cell]? = some c
    rcases member with before | new
    · obtain ⟨c, found⟩ := within.there share before
      exact ⟨c, by rw [Array.getElem?_push, if_neg (Nat.ne_of_lt (lt_size_of_cell? found))]; exact found⟩
    · exact ⟨cell, by rw [new, Array.getElem?_push_size]⟩
  · intro share content member found
    change (s.cells.push cell)[share.cell]? = some (.data content) at found
    rw [Array.getElem?_push] at found
    split at found
    · cases found
      exact (held content rfl).mono fun _ => .inl
    · next old =>
      refine (within.closed share content (member.resolve_right old) found).mono fun _ => .inl
  · exact fun share => .inl
  · rintro share (before | new)
    · exact .inl before
    · exact .inr (Nat.le_of_eq new.symm)
  · change s.cells.size ≤ (s.cells.push cell).size
    simp
  · intro share c _ found
    change (s.cells.push cell)[share.cell]? = some c
    rw [Array.getElem?_push, if_neg (Nat.ne_of_lt (lt_size_of_cell? found))]
    exact found
  · exact Value.every_shared.mpr (.inr rfl)

private theorem keep_staysIn {content : Datum} (within : s.Region region) (held : content.Every region) :
    StaysIn region Holds s (keep content) :=
  keepCell_staysIn within fun _ same => by cases same; exact held

mutual

theorem share_staysIn (v : Datum) {s : Store} {region : Share → Prop} (within : s.Region region)
    (held : v.Every region) : StaysIn region Holds s (share v) := by
  cases v with
  | list items =>
    exact (shareItems_staysIn items within held).bind fun _ _ _ widens kept =>
      keep_staysIn widens.within kept
  | object fields =>
    exact (shareFields_staysIn fields within held).bind fun _ _ _ widens kept =>
      keep_staysIn widens.within kept
  | table entries =>
    exact (shareEntries_staysIn entries within held).bind fun _ _ _ widens kept =>
      keep_staysIn widens.within kept
  | _ => exact .pure within held

theorem shareItems_staysIn (items : List Datum) {s : Store} {region : Share → Prop}
    (within : s.Region region) (held : Value.EveryItem region items) :
    StaysIn region Value.EveryItem s (shareItems items) := by
  cases items with
  | nil => exact .pure within held
  | cons v rest =>
    refine (share_staysIn v within held.1).bind fun first _ _ widens kept => ?_
    refine (shareItems_staysIn rest widens.within (held.2.mono widens.keeps)).bind
      fun others _ _ further left => ?_
    exact .pure further.within ⟨kept.mono further.keeps, left⟩

theorem shareFields_staysIn (fields : List (String × Datum)) {s : Store} {region : Share → Prop}
    (within : s.Region region) (held : Value.EveryField region fields) :
    StaysIn region Value.EveryField s (shareFields fields) := by
  cases fields with
  | nil => exact .pure within held
  | cons entry rest =>
    refine (share_staysIn entry.2 within held.1).bind fun first _ _ widens kept => ?_
    refine (shareFields_staysIn rest widens.within (held.2.mono widens.keeps)).bind
      fun others _ _ further left => ?_
    exact .pure further.within ⟨kept.mono further.keeps, left⟩

theorem shareEntries_staysIn (entries : List (Datum × Datum)) {s : Store} {region : Share → Prop}
    (within : s.Region region) (held : Value.EveryEntry region entries) :
    StaysIn region Value.EveryEntry s (shareEntries entries) := by
  cases entries with
  | nil => exact .pure within held
  | cons entry rest =>
    refine (share_staysIn entry.2 within held.1.2).bind fun first _ _ widens kept => ?_
    refine (shareEntries_staysIn rest widens.within (held.2.mono widens.keeps)).bind
      fun others _ _ further left => ?_
    have named := (held.1.1.mono widens.keeps).mono further.keeps
    exact .pure further.within ⟨⟨named, kept.mono further.keeps⟩, left⟩

end

theorem shareInside_staysIn (content : Datum) (within : s.Region region) (held : content.Every region) :
    StaysIn region Holds s (shareInside content) := by
  cases content with
  | list items =>
    exact (shareItems_staysIn items within held).bind fun _ _ _ widens kept => .pure widens.within kept
  | object fields =>
    exact (shareFields_staysIn fields within held).bind fun _ _ _ widens kept => .pure widens.within kept
  | table entries =>
    exact (shareEntries_staysIn entries within held).bind fun _ _ _ widens kept =>
      .pure widens.within kept
  | _ => exact .pure within held

/-- What is kept at a place of the region is changed. -/
theorem replace_staysIn {share : Share} {content : Datum} (within : s.Region region)
    (member : region share) (held : content.Every region) :
    StaysIn region (fun _ _ => True) s (replace share content) := by
  refine ⟨region, ⟨⟨?_, ?_⟩, fun _ member => member, fun _ member => .inl member, ?_, ?_,
    fun _ _ found => .inl found⟩, trivial⟩
  · intro other inside
    obtain ⟨c, found⟩ := within.there other inside
    change ∃ c, (s.cells.setIfInBounds share.cell (.data content))[other.cell]? = some c
    rw [Array.getElem?_setIfInBounds]
    split
    · exact ⟨_, by rw [if_pos (by have := lt_size_of_cell? found; omega)]⟩
    · exact ⟨c, found⟩
  · intro other kept inside found
    change (s.cells.setIfInBounds share.cell (.data content))[other.cell]? = some (.data kept) at found
    rw [Array.getElem?_setIfInBounds] at found
    split at found
    · split at found
      · cases found
        exact held
      · cases found
    · exact within.closed other kept inside found
  · change s.cells.size ≤ (s.cells.setIfInBounds share.cell (.data content)).size
    simp
  · intro other c outside found
    change (s.cells.setIfInBounds share.cell (.data content))[other.cell]? = some c
    rw [Array.getElem?_setIfInBounds, if_neg]
    · exact found
    · intro same
      obtain rfl : share = other := by cases share; cases other; exact congrArg Share.mk same
      exact outside member

end Store

end ResourceGraph
