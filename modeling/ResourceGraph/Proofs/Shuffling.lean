import Mathlib.Data.List.Perm.Basic
import ResourceGraph.Keyed
import ResourceGraph.Proofs.Reordering

/-!
Lists that are each other's in another order, with a relation between the members that belong
together. Between maps with distinct keys it says that related values are found under the same keys.
-/

namespace ResourceGraph

variable {α β γ δ : Type}

/-- The second list has, in some order, a member for each of the first, and the two are related. -/
def Shuffled (related : α → β → Prop) (xs : List α) (ys : List β) : Prop :=
  ∃ between, xs.Perm between ∧ List.Forall₂ related between ys

namespace Shuffled

variable {related : α → β → Prop} {xs : List α} {ys : List β}

theorem mono {other : α → β → Prop} (shuffled : Shuffled related xs ys)
    (implies : ∀ x ∈ xs, ∀ y ∈ ys, related x y → other x y) : Shuffled other xs ys := by
  obtain ⟨between, order, pairs⟩ := shuffled
  refine ⟨between, order, ?_⟩
  have inside : ∀ x ∈ between, x ∈ xs := fun x member => order.mem_iff.mpr member
  clear order
  induction pairs with
  | nil => exact .nil
  | @cons x y between ys first _ ih =>
    refine .cons (implies x (inside x List.mem_cons_self) y List.mem_cons_self first) (ih ?_ ?_)
    · exact fun x' member y' member' => implies x' member y' (List.mem_cons_of_mem y member')
    · exact fun x' member => inside x' (List.mem_cons_of_mem x member)

/-- Lists are shuffled as what they are mapped to is. -/
theorem of_map {target : γ → δ → Prop} {f : α → γ} {g : β → δ}
    (shuffled : Shuffled target (xs.map f) (ys.map g)) :
    Shuffled (fun x y => target (f x) (g y)) xs ys := by
  obtain ⟨between, order, pairs⟩ := shuffled
  obtain ⟨zs, lifted, rfl⟩ := exists_perm_of_map_perm order
  exact ⟨zs, lifted, List.forall₂_map_right_iff.mp (List.forall₂_map_left_iff.mp pairs)⟩

/-- What related members are expanded to in the same way, up to order, the lists are. -/
theorem flatMap (shuffled : Shuffled related xs ys) {f : α → List γ} {g : β → List γ}
    (each : ∀ x y, related x y → (f x).Perm (g y)) : (xs.flatMap f).Perm (ys.flatMap g) := by
  obtain ⟨between, order, pairs⟩ := shuffled
  refine (order.flatMap_right f).trans ?_
  clear order
  induction pairs with
  | nil => exact .refl _
  | cons first _ ih =>
    rw [List.flatMap_cons, List.flatMap_cons]
    exact (each _ _ first).append ih

theorem map (shuffled : Shuffled related xs ys) {f : α → γ} {g : β → γ}
    (each : ∀ x y, related x y → f x = g y) : (xs.map f).Perm (ys.map g) := by
  rw [List.map_eq_flatMap, List.map_eq_flatMap]
  exact shuffled.flatMap fun x y h => by rw [each x y h]

theorem forall_iff (shuffled : Shuffled related xs ys) {p : α → Prop} {q : β → Prop}
    (each : ∀ x y, related x y → (p x ↔ q y)) : (∀ x ∈ xs, p x) ↔ ∀ y ∈ ys, q y := by
  obtain ⟨between, order, pairs⟩ := shuffled
  have inBetween : (∀ x ∈ xs, p x) ↔ ∀ x ∈ between, p x := by simp only [order.mem_iff]
  rw [inBetween]
  clear order inBetween
  induction pairs with
  | nil => simp
  | cons first _ ih => simp only [List.forall_mem_cons, each _ _ first, ih]

end Shuffled

/-- Entries under one key, with related values. -/
def SameKey (related : α → β → Prop) (x : String × α) (y : String × β) : Prop :=
  x.1 = y.1 ∧ related x.2 y.2

namespace Keyed

theorem get?_append_new {m : Keyed α} {key : String} (fresh : key ∉ keys m) (value : α)
    (other : String) :
    get? (m ++ [(key, value)]) other = if other = key then some value else get? m other := by
  induction m with
  | nil =>
    by_cases same : key = other
    · simp [get?, same]
    · simp [get?, same, Ne.symm same]
  | cons entry rest ih =>
    obtain ⟨k, a⟩ := entry
    have freshRest : key ∉ keys rest := fun member => fresh (List.mem_cons_of_mem _ member)
    have different : k ≠ key := fun same => fresh (same ▸ List.mem_cons_self)
    rw [List.cons_append, get?, get?, ih freshRest]
    by_cases here : k = other
    · rw [if_pos here, if_pos here, if_neg (here ▸ different)]
    · rw [if_neg here, if_neg here]

/-- With distinct keys, each entry is found. -/
theorem get?_of_getElem? {m : Keyed α} (distinct : (keys m).Nodup) {index : Nat} {key : String}
    {value : α}
    (there : m[index]? = some (key, value)) : get? m key = some value := by
  induction m generalizing index with
  | nil => simp at there
  | cons entry rest ih =>
    obtain ⟨k, a⟩ := entry
    obtain ⟨fresh, distinctRest⟩ := List.nodup_cons.mp distinct
    cases index with
    | zero =>
      cases there
      exact if_pos rfl
    | succ index =>
      rw [List.getElem?_cons_succ] at there
      have member : key ∈ keys rest := List.mem_map.mpr ⟨_, List.mem_of_getElem? there, rfl⟩
      have different : k ≠ key := fun same => fresh (same ▸ member)
      rw [get?, if_neg different, ih distinctRest there]

/-- With distinct keys, a new value in the place of an entry is found under its key. -/
theorem get?_set {m : Keyed α} (distinct : (keys m).Nodup) {index : Nat} {key : String} {value : α}
    (there : m[index]? = some (key, value)) (new : α) (other : String) :
    get? (m.set index (key, new)) other = if other = key then some new else get? m other := by
  induction m generalizing index with
  | nil => simp at there
  | cons entry rest ih =>
    obtain ⟨k, a⟩ := entry
    obtain ⟨fresh, distinctRest⟩ := List.nodup_cons.mp distinct
    cases index with
    | zero =>
      cases there
      by_cases same : key = other
      · simp [get?, same]
      · simp [get?, same, Ne.symm same]
    | succ index =>
      rw [List.getElem?_cons_succ] at there
      have member : key ∈ keys rest := List.mem_map.mpr ⟨_, List.mem_of_getElem? there, rfl⟩
      have different : k ≠ key := fun same => fresh (same ▸ member)
      rw [List.set_cons_succ, get?, get?, ih distinctRest there]
      by_cases here : k = other
      · rw [if_pos here, if_pos here, if_neg (here ▸ different)]
      · rw [if_neg here, if_neg here]

variable {related : α → β → Prop} {m : Keyed α} {n : Keyed β}

theorem keys_perm (shuffled : Shuffled (SameKey related) m n) : (keys m).Perm (keys n) :=
  shuffled.map fun _ _ same => same.1

private theorem get?_perm {m n : Keyed α} (order : m.Perm n) (distinct : (keys m).Nodup) (key : String) :
    get? m key = get? n key := by
  induction order with
  | nil => rfl
  | cons entry _ ih =>
    obtain ⟨k, a⟩ := entry
    have rest := ih (List.nodup_cons.mp distinct).2
    simp only [get?, rest]
  | swap first second rest =>
    obtain ⟨k, a⟩ := first
    obtain ⟨l, b⟩ := second
    have apart : l ≠ k := fun same => (List.nodup_cons.mp distinct).1 (by simp [same])
    simp only [get?]
    by_cases h : l = key
    · have other : ¬ k = key := fun same => apart (h.trans same.symm)
      simp [h, other]
    · simp [h]
  | trans first _ ih ih' =>
    have between : (keys _).Nodup := (first.map Prod.fst).nodup_iff.mp distinct
    exact (ih distinct).trans (ih' between)

/-- Under each key, related values are found or none. -/
theorem get?_shuffled (shuffled : Shuffled (SameKey related) m n) (distinct : (keys m).Nodup)
    (key : String) : Option.Rel related (get? m key) (get? n key) := by
  obtain ⟨between, order, pairs⟩ := shuffled
  rw [get?_perm order distinct]
  clear order
  induction pairs with
  | nil => exact .none
  | @cons x y _ _ first _ ih =>
    obtain ⟨k, a⟩ := x
    obtain ⟨l, b⟩ := y
    obtain ⟨same, values⟩ := first
    dsimp only at same values
    subst same
    unfold get?
    split
    · exact .some values
    · exact ih

end Keyed

end ResourceGraph
