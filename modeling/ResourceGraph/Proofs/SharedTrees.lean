import ResourceGraph.Proofs.Wholeness

/-!
What kept data spells out. To keep the containers of a datum, as is done with parameters before they
are sent, changes neither the tree that the datum spells out nor those of its members.
-/

namespace ResourceGraph

namespace Value

variable {ρ σ τ : Type} {f : ρ → Option (Value σ)} {g : τ → Option (Value σ)}

private theorem bindItems?_eq_of_map {items : List (Value ρ)} {others : List (Value τ)}
    (same : items.map (bind? f) = others.map (bind? g)) : bindItems? f items = bindItems? g others := by
  induction items generalizing others with
  | nil =>
    rw [List.map_eq_nil_iff.mp same.symm]
    rfl
  | cons v rest ih =>
    obtain ⟨w, tail, rfl, first, last⟩ := List.map_eq_cons_iff.mp same.symm
    rw [bindItems?, bindItems?, first, ih last.symm]

private theorem bindFields?_eq_of_map {fields : List (String × Value ρ)}
    {others : List (String × Value τ)}
    (same : fields.map (Prod.map id (bind? f)) = others.map (Prod.map id (bind? g))) :
    bindFields? f fields = bindFields? g others := by
  induction fields generalizing others with
  | nil =>
    rw [List.map_eq_nil_iff.mp same.symm]
    rfl
  | cons entry rest ih =>
    obtain ⟨other, tail, rfl, first, last⟩ := List.map_eq_cons_iff.mp same.symm
    obtain ⟨key, v⟩ := entry
    obtain ⟨key', w⟩ := other
    obtain ⟨rfl, value⟩ := Prod.mk.inj first
    rw [bindFields?, bindFields?, ← show bind? g w = bind? f v from value, ih last.symm]
    rfl

private theorem bindEntries?_eq_of_map {entries : List (Value ρ × Value ρ)}
    {others : List (Value τ × Value τ)}
    (same : entries.map (Prod.map (bind? f) (bind? f)) = others.map (Prod.map (bind? g) (bind? g))) :
    bindEntries? f entries = bindEntries? g others := by
  induction entries generalizing others with
  | nil =>
    rw [List.map_eq_nil_iff.mp same.symm]
    rfl
  | cons entry rest ih =>
    obtain ⟨other, tail, rfl, first, last⟩ := List.map_eq_cons_iff.mp same.symm
    obtain ⟨key, value⟩ := Prod.mk.inj first
    rw [bindEntries?, bindEntries?, key, value, ih last.symm]

mutual

/-- A plain tree has no shares to replace. -/
theorem bind?_tree (f : Empty → Option Json) (tree : Json) : bind? f tree = some tree := by
  cases tree with
  | list items => exact congrArg (Option.map list) (bindItems?_tree f items)
  | object fields => exact congrArg (Option.map object) (bindFields?_tree f fields)
  | table entries => exact congrArg (Option.map table) (bindEntries?_tree f entries)
  | shared share => exact share.elim
  | _ => rfl

theorem bindItems?_tree (f : Empty → Option Json) (items : List Json) :
    bindItems? f items = some items := by
  cases items with
  | nil => rfl
  | cons v rest =>
    rw [bindItems?, bind?_tree f v, bindItems?_tree f rest]
    rfl

theorem bindFields?_tree (f : Empty → Option Json) (fields : List (String × Json)) :
    bindFields? f fields = some fields := by
  cases fields with
  | nil => rfl
  | cons entry rest =>
    rw [bindFields?, bind?_tree f entry.2, bindFields?_tree f rest]
    rfl

theorem bindEntries?_tree (f : Empty → Option Json) (entries : List (Json × Json)) :
    bindEntries? f entries = some entries := by
  cases entries with
  | nil => rfl
  | cons entry rest =>
    rw [bindEntries?, bind?_tree f entry.1, bind?_tree f entry.2, bindEntries?_tree f rest]
    rfl

end

end Value

namespace Store

variable {s t : Store} {v : Datum}

/-! ## Trees -/

private theorem tree?_eq_some {tree : Json} :
    s.tree? v = some tree ↔ ∃ depth, s.treeTo depth v = some tree :=
  ⟨fun spelled => ⟨_, spelled⟩, fun ⟨_, spelled⟩ => tree?_of_treeTo spelled⟩

theorem Grows.tree? (closed : s.Closed) (grows : Grows s t) (within : v.Every s.Within) :
    t.tree? v = s.tree? v := by
  ext tree
  rw [tree?_eq_some, tree?_eq_some]
  exact exists_congr fun depth => by rw [grows.treeTo closed within]

/-- The tree of a kept container is the tree of its content. -/
theorem tree?_shared {share : Share} {content : Datum} (found : s.cell? share = some (.data content)) :
    s.tree? (.shared share) = s.tree? content := by
  have deeper : ∀ depth, s.treeTo (depth + 1) (.shared share) = s.treeTo depth content := fun depth => by
    rw [treeTo_shared, found]
  ext tree
  rw [tree?_eq_some, tree?_eq_some]
  constructor
  · rintro ⟨depth, spelled⟩
    exact ⟨depth, deeper depth ▸ treeTo_succ spelled⟩
  · rintro ⟨depth, spelled⟩
    exact ⟨depth + 1, (deeper depth).trans spelled⟩

private theorem tree?_eq_bind (s : Store) :
    s.tree? = Value.bind? fun share => s.tree? (.shared share) := by
  funext v
  rfl

private theorem cell?_keep (s : Store) (v : Datum) :
    ((keep v).run s).2.cell? ⟨s.cells.size⟩ = some (.data v) := by
  change (s.cells.push (.data v))[s.cells.size]? = _
  simp

private theorem tree?_keep (closed : s.Closed) (within : v.Every s.Within) :
    ((keep v).run s).2.tree? ((keep v).run s).1 = s.tree? v := by
  exact (tree?_shared (cell?_keep s v)).trans (Grows.tree? closed (keep_adds v s).cells within)

-- Members and entries are what is asked for further on. They hold values of every kind, so that the
-- induction is over all of these together.
mutual

/-- What is kept spells out the same. -/
theorem tree?_share (v : Datum) {s : Store} (closed : s.Closed) (within : v.Every s.Within) :
    ((share v).run s).2.tree? ((share v).run s).1 = s.tree? v := by
  cases v with
  | list items =>
    obtain ⟨after, held⟩ := Relocation.closed_of_shareInside closed within
    have same := map_shareItems items closed (Value.every_list.mp within)
    rw [tree?_eq_bind, tree?_eq_bind s] at same
    calc ((share (.list items)).run s).2.tree? ((share (.list items)).run s).1
      _ = ((shareItems items).run s).2.tree? (.list ((shareItems items).run s).1) :=
        tree?_keep after held
      _ = s.tree? (.list items) := congrArg (Option.map Value.list) (Value.bindItems?_eq_of_map same)
  | object fields =>
    obtain ⟨after, held⟩ := Relocation.closed_of_shareInside closed within
    have same := map_shareFields fields closed (Value.every_object.mp within)
    rw [tree?_eq_bind, tree?_eq_bind s] at same
    calc ((share (.object fields)).run s).2.tree? ((share (.object fields)).run s).1
      _ = ((shareFields fields).run s).2.tree? (.object ((shareFields fields).run s).1) :=
        tree?_keep after held
      _ = s.tree? (.object fields) :=
        congrArg (Option.map Value.object) (Value.bindFields?_eq_of_map same)
  | table entries =>
    obtain ⟨after, held⟩ := Relocation.closed_of_shareInside closed within
    have every := Value.every_table.mp within
    have grows : Grows s ((shareEntries entries).run s).2 := (shareEntries_adds entries s).cells
    -- The keys of a table are not kept, and spell out the same in the larger store.
    have keys : entries.map (Prod.map ((shareEntries entries).run s).2.tree? s.tree?) =
        entries.map (Prod.map s.tree? s.tree?) := by
      apply List.map_congr_left
      intro entry member
      exact congrArg (Prod.mk · (s.tree? entry.2)) (Grows.tree? closed grows (every entry member).1)
    have same := congrArg (List.map (Prod.map ((shareEntries entries).run s).2.tree? id))
      (map_shareEntries entries closed every)
    simp only [List.map_map, Prod.map_comp_map, Function.comp_id, Function.id_comp] at same
    rw [keys, tree?_eq_bind, tree?_eq_bind s] at same
    calc ((share (.table entries)).run s).2.tree? ((share (.table entries)).run s).1
      _ = ((shareEntries entries).run s).2.tree? (.table ((shareEntries entries).run s).1) :=
        tree?_keep after held
      _ = s.tree? (.table entries) :=
        congrArg (Option.map Value.table) (Value.bindEntries?_eq_of_map same)
  | _ => rfl

theorem map_shareItems (items : List Datum) {s : Store} (closed : s.Closed)
    (within : ∀ v ∈ items, v.Every s.Within) :
    ((shareItems items).run s).1.map ((shareItems items).run s).2.tree? = items.map s.tree? := by
  cases items with
  | nil => rfl
  | cons v rest =>
    obtain ⟨after, held⟩ := closed_of_share closed (within v List.mem_cons_self)
    have adds := share_adds v s
    have further := (shareItems_adds rest ((share v).run s).2).cells
    have others : ∀ w ∈ rest, w.Every s.Within :=
      fun w member => within w (List.mem_cons_of_mem _ member)
    have tail :=
      map_shareItems rest after fun w member => (others w member).mono (within_mono adds.size_le)
    have first :=
      (Grows.tree? after further held).trans (tree?_share v closed (within v List.mem_cons_self))
    have still : rest.map ((share v).run s).2.tree? = rest.map s.tree? := by
      apply List.map_congr_left
      intro w member
      exact Grows.tree? closed adds.cells (others w member)
    exact congrArg₂ List.cons first (tail.trans still)

theorem map_shareFields (fields : Keyed Datum) {s : Store} (closed : s.Closed)
    (within : ∀ entry ∈ fields, entry.2.Every s.Within) :
    ((shareFields fields).run s).1.map (Prod.map id ((shareFields fields).run s).2.tree?) =
      fields.map (Prod.map id s.tree?) := by
  cases fields with
  | nil => rfl
  | cons entry rest =>
    obtain ⟨after, held⟩ := closed_of_share closed (within entry List.mem_cons_self)
    have adds := share_adds entry.2 s
    have further := (shareFields_adds rest ((share entry.2).run s).2).cells
    have others : ∀ other ∈ rest, other.2.Every s.Within :=
      fun other member => within other (List.mem_cons_of_mem _ member)
    have tail := map_shareFields rest after fun other member =>
      (others other member).mono (within_mono adds.size_le)
    have first := (Grows.tree? after further held).trans
      (tree?_share entry.2 closed (within entry List.mem_cons_self))
    have still : rest.map (Prod.map id ((share entry.2).run s).2.tree?) =
        rest.map (Prod.map id s.tree?) := by
      apply List.map_congr_left
      intro other member
      exact congrArg (Prod.mk other.1) (Grows.tree? closed adds.cells (others other member))
    exact congrArg₂ List.cons (congrArg (Prod.mk entry.1) first) (tail.trans still)

theorem map_shareEntries (entries : List (Datum × Datum)) {s : Store} (closed : s.Closed)
    (within : ∀ entry ∈ entries, entry.1.Every s.Within ∧ entry.2.Every s.Within) :
    ((shareEntries entries).run s).1.map (Prod.map id ((shareEntries entries).run s).2.tree?) =
      entries.map (Prod.map id s.tree?) := by
  cases entries with
  | nil => rfl
  | cons entry rest =>
    have value := (within entry List.mem_cons_self).2
    obtain ⟨after, held⟩ := closed_of_share closed value
    have adds := share_adds entry.2 s
    have further := (shareEntries_adds rest ((share entry.2).run s).2).cells
    have others : ∀ other ∈ rest, other.1.Every s.Within ∧ other.2.Every s.Within :=
      fun other member => within other (List.mem_cons_of_mem _ member)
    have tail := map_shareEntries rest after fun other member =>
      ⟨(others other member).1.mono (within_mono adds.size_le),
        (others other member).2.mono (within_mono adds.size_le)⟩
    have first := (Grows.tree? after further held).trans (tree?_share entry.2 closed value)
    have still : rest.map (Prod.map id ((share entry.2).run s).2.tree?) =
        rest.map (Prod.map id s.tree?) := by
      apply List.map_congr_left
      intro other member
      exact congrArg (Prod.mk other.1) (Grows.tree? closed adds.cells (others other member).2)
    exact congrArg₂ List.cons (congrArg (Prod.mk entry.1) first) (tail.trans still)

end

end Store

end ResourceGraph
