import ResourceGraph.Graph.Open
import ResourceGraph.Proofs.Passing

/-!
Graphs in which nothing is missing. What is kept in a store, and what resources hold as identifiers
and as data, refers to places of the store. Whatever is done to read the data of a resource keeps it
so: a load calls a client, keeps the answer, searches it and gives it to the resource, and the
parameters of the call may read data that is loaded in turn.
-/

namespace ResourceGraph

open ResourceGraph.Graph ResourceGraph.Store ResourceGraph.Path

/-- Nothing in the graph refers to a place that is not there. -/
structure Graph.Whole (g : Graph) : Prop where
  store : g.store.Closed
  identifiers : ∀ (id : ResourceId) (r : Resource), g.resources[id]? = some r →
    ∀ entry ∈ r.identifiers, entry.2.Every g.store.Within
  data : ∀ (id : ResourceId) (r : Resource) (v : Datum), g.resources[id]? = some r → r.data = some v →
    v.Every g.store.Within

namespace Value

variable {ρ σ : Type} {P : ρ → Prop} {Q : σ → Prop} {f : ρ → Value σ}

mutual

/-- What shares are replaced by is all that a value holds then. -/
theorem every_bind (each : ∀ share, P share → (f share).Every Q) {v : Value ρ} (every : v.Every P) :
    (v.bind f).Every Q := by
  cases v with
  | list items => exact everyItem_bindItems each every
  | object fields => exact everyField_bindFields each every
  | table entries => exact everyEntry_bindEntries each every
  | shared share => exact each share every
  | _ => trivial

theorem everyItem_bindItems (each : ∀ share, P share → (f share).Every Q) {items : List (Value ρ)}
    (every : EveryItem P items) : EveryItem Q (bindItems f items) := by
  cases items with
  | nil => trivial
  | cons v rest => exact ⟨every_bind each every.1, everyItem_bindItems each every.2⟩

theorem everyField_bindFields (each : ∀ share, P share → (f share).Every Q)
    {fields : List (String × Value ρ)}
    (every : EveryField P fields) : EveryField Q (bindFields f fields) := by
  cases fields with
  | nil => trivial
  | cons entry rest => exact ⟨every_bind each every.1, everyField_bindFields each every.2⟩

theorem everyEntry_bindEntries (each : ∀ share, P share → (f share).Every Q)
    {entries : List (Value ρ × Value ρ)} (every : EveryEntry P entries) :
    EveryEntry Q (bindEntries f entries) := by
  cases entries with
  | nil => trivial
  | cons entry rest =>
    exact ⟨⟨every_bind each every.1.1, every_bind each every.1.2⟩, everyEntry_bindEntries each every.2⟩

end

end Value

/-! ## Work on the store -/

namespace Store

variable {s : Store} {v : Datum}

/-- What is in a store stays where it is while everything beyond a larger size is moved. -/
theorem moved_beyond {n : Nat} (more : s.cells.size ≤ n) (within : v.Every s.Within) :
    (Relocation.beyond n).moved v = v := by
  refine Relocation.moved_eq_self _ (within.mono fun place inside => ?_)
  exact Relocation.place_beyond.mpr (Nat.lt_of_lt_of_le inside more)

theorem closed_of_share (closed : s.Closed) (within : v.Every s.Within) :
    ((share v).run s).2.Closed ∧ ((share v).run s).1.Every ((share v).run s).2.Within := by
  let work : ExceptT Failure (StateM Store) Datum := ExceptT.lift (share v)
  have more : s.cells.size ≤ (runIn work s).2.cells.size := (share_adds v s).size_le
  have even :=
    Relocation.Even.share (m := Relocation.beyond (runIn work s).2.cells.size) (ε := Failure) v
  rw [moved_beyond more within] at even
  obtain ⟨left, gives⟩ := Relocation.closed_of_even (x := work) closed even
  exact ⟨left, gives _ rfl⟩

end Store

/-! ## Actions -/

/-- Both parts of a response refer to what is so. -/
def Response.Every (P : Share → Prop) (r : Response) : Prop := r.data.Every P ∧ r.params.Every P

namespace Graph

variable {g h : Graph}

/-- Only the store and what resources hold matter. -/
theorem Whole.alike (whole : g.Whole) (store : h.store = g.store)
    (resources : h.resources = g.resources) :
    h.Whole where
  store := store ▸ whole.store
  identifiers := by rw [store, resources]; exact whole.identifiers
  data := by rw [store, resources]; exact whole.data

theorem Whole.withData {v : Datum} (whole : g.Whole) (id : ResourceId)
    (within : v.Every g.store.Within) :
    (g.withData id v).Whole := by
  have cases : ∀ (other : ResourceId) (s : Resource), (g.withData id v).resources[other]? = some s →
      ∃ r, g.resources[other]? = some r ∧ s.identifiers = r.identifiers ∧
        (s.data = some v ∨ s.data = r.data) := by
    intro other s there
    change (g.resources.modify id _)[other]? = some s at there
    rw [Array.getElem?_modify] at there
    split at there
    · obtain ⟨r, found, rfl⟩ := Option.map_eq_some_iff.mp there
      exact ⟨r, found, rfl, .inl rfl⟩
    · exact ⟨s, there, rfl, .inr rfl⟩
  constructor
  case store => exact whole.store
  case identifiers =>
    intro other s there
    obtain ⟨r, found, same, -⟩ := cases other s there
    rw [same]
    exact whole.identifiers other r found
  case data =>
    intro other s w there held
    obtain ⟨r, found, -, new | old⟩ := cases other s there
    · rw [new] at held
      cases held
      exact within
    · exact whole.data other r w found (old ▸ held)

end Graph

namespace Act

variable {α β : Type} {holds : (Share → Prop) → α → Prop} {gives : (Share → Prop) → β → Prop} {g : Graph}
  {x : Act α} {f : α → Act β}

/-- The action leaves a whole graph, in which no place was lost, and what it gives refers to what is
there. -/
structure LeavesWhole (holds : (Share → Prop) → α → Prop) (g : Graph) (x : Act α) : Prop where
  more : g.store.cells.size ≤ (runIn x g).2.store.cells.size
  whole : (runIn x g).2.Whole
  given : ∀ a, (runIn x g).1 = .ok a → holds (runIn x g).2.store.Within a

namespace LeavesWhole

theorem pure (whole : g.Whole) {a : α} (held : holds g.store.Within a) :
    LeavesWhole holds g (Pure.pure a) := by
  constructor
  case more => exact Nat.le_refl _
  case whole => exact whole
  case given =>
    intro b gave
    cases gave
    exact held

theorem fail (whole : g.Whole) (failure : Failure) : LeavesWhole holds g (Act.fail failure) :=
  ⟨Nat.le_refl _, whole, nofun⟩

/-- An action that goes like one that starts later leaves what that one leaves. -/
private theorem of_runs {y : Act β} {z : Act β} {h : Graph} (same : runIn y g = runIn z h)
    (more : g.store.cells.size ≤ h.store.cells.size) (leaves : LeavesWhole gives h z) :
    LeavesWhole gives g y := by
  constructor
  case more =>
    rw [same]
    exact Nat.le_trans more leaves.more
  case whole =>
    rw [same]
    exact leaves.whole
  case given =>
    rw [same]
    exact leaves.given

private theorem of_fails {y : Act β} {failure : Failure} {h : Graph}
    (ran : runIn y g = (.error failure, h)) (more : g.store.cells.size ≤ h.store.cells.size)
    (whole : h.Whole) : LeavesWhole gives g y :=
  .of_runs (z := Act.fail failure) ran more (.fail whole failure)

theorem bind (first : LeavesWhole holds g x)
    (rest : ∀ a h, g.store.cells.size ≤ h.store.cells.size → h.Whole → holds h.store.Within a →
      LeavesWhole gives h (f a)) : LeavesWhole gives g (x >>= f) := by
  obtain ⟨more, whole, given⟩ := first
  rcases ran : runIn x g with ⟨failure | a, h⟩
  · rw [ran] at more whole
    exact .of_fails (runIn_bind_error ran) more whole
  · rw [ran] at more whole given
    exact .of_runs (runIn_bind_ok ran) more (rest a h more whole (given a rfl))

theorem looked (whole : g.Whole) (looks : Looks x)
    (rest : ∀ a, (runIn x g).1 = .ok a → LeavesWhole gives g (f a)) : LeavesWhole gives g (x >>= f) := by
  rcases ran : runIn x g with ⟨failure | a, h⟩
  · obtain rfl := looks.same ran
    exact .of_fails (runIn_bind_error ran) (Nat.le_refl _) whole
  · obtain rfl := looks.same ran
    exact .of_runs (runIn_bind_ok ran) (Nat.le_refl _) (rest a (by rw [ran]))

private theorem tryCatch {handle : Failure → Act α} (first : LeavesWhole holds g x)
    (rest : ∀ failure h, g.store.cells.size ≤ h.store.cells.size → h.Whole →
      LeavesWhole holds h (handle failure)) :
    LeavesWhole holds g (MonadExcept.tryCatch x handle) := by
  rcases ran : runIn x g with ⟨failure | a, h⟩
  · have caught : runIn (MonadExcept.tryCatch x handle) g = runIn (handle failure) h := by
      rw [runIn_tryCatch, ran]
    obtain ⟨more, whole, -⟩ := first
    rw [ran] at more whole
    exact .of_runs caught more (rest failure h more whole)
  · have passed : runIn (MonadExcept.tryCatch x handle) g = runIn x g := by rw [runIn_tryCatch, ran]
    exact .of_runs passed (Nat.le_refl _) first

end LeavesWhole

/-! ### The store -/

section Reading

variable {read : ResourceId → Act Datum}

end Reading

end Act

end ResourceGraph
