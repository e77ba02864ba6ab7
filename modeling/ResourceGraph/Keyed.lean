/-!
Maps that keep the order in which their keys were first stored. Objects, identifiers, operations and
registered services are such maps, because their order can be seen in answers. Storing under a key
that is there already keeps its place.
-/

namespace ResourceGraph

/-- Entries in the order their keys were first stored. -/
abbrev Keyed (α : Type) := List (String × α)

namespace Keyed

variable {α β : Type}

/-- The value stored under a key. -/
def get? : Keyed α → String → Option α
  | [], _ => none
  | (k, a) :: rest, key => if k = key then some a else get? rest key

/-- The map with a value stored under a key: in the key's place, or at the end. -/
def put : Keyed α → String → α → Keyed α
  | [], key, value => [(key, value)]
  | (k, a) :: rest, key, value =>
    if k = key then (k, value) :: rest else (k, a) :: put rest key value

/-- The map without a key. -/
def erase (m : Keyed α) (key : String) : Keyed α := m.filter fun entry => entry.1 != key

/-- The keys in order. -/
def keys (m : Keyed α) : List String := m.map Prod.fst

/-- The key is stored. -/
def has (m : Keyed α) (key : String) : Bool := (get? m key).isSome

/-- All entries of the second map stored into the first, in order. -/
def merge (m n : Keyed α) : Keyed α := n.foldl (fun acc entry => put acc entry.1 entry.2) m

/-- The map that storing the entries one after another gives. -/
def ofList (entries : List (String × α)) : Keyed α := merge [] entries

/-- The place of a key in the order. -/
def indexOf? : Keyed α → String → Option Nat
  | [], _ => none
  | (k, _) :: rest, key => if k = key then some 0 else (indexOf? rest key).map (· + 1)

@[simp] theorem get?_put_self (m : Keyed α) (key : String) (value : α) :
    get? (put m key value) key = some value := by
  induction m with
  | nil => simp [put, get?]
  | cons entry rest ih =>
    obtain ⟨k, a⟩ := entry
    by_cases h : k = key <;> simp [put, get?, h, ih]

theorem get?_put_of_ne (m : Keyed α) {key other : String} (value : α) (h : other ≠ key) :
    get? (put m key value) other = get? m other := by
  induction m with
  | nil => simp [put, get?, Ne.symm h]
  | cons entry rest ih =>
    obtain ⟨k, a⟩ := entry
    by_cases hk : k = key
    · subst hk
      simp [put, get?, Ne.symm h]
    · rw [put, if_neg hk, get?, get?, ih]

theorem get?_eq_none_iff {m : Keyed α} {key : String} : get? m key = none ↔ key ∉ keys m := by
  induction m with
  | nil => simp [get?, keys]
  | cons entry rest ih =>
    obtain ⟨k, a⟩ := entry
    by_cases h : k = key
    · simp [get?, keys, h]
    · have hk : ¬ key = k := fun e => h e.symm
      have hkeys : keys ((k, a) :: rest) = k :: keys rest := rfl
      simp [get?, h, hkeys, hk, ih]

theorem mem_of_get? {m : Keyed α} {key : String} {value : α} (found : get? m key = some value) :
    (key, value) ∈ m := by
  induction m with
  | nil => cases found
  | cons entry rest ih =>
    obtain ⟨k, a⟩ := entry
    unfold get? at found
    split at found
    · next same =>
      cases found
      exact same ▸ List.mem_cons_self
    · exact List.mem_cons_of_mem _ (ih found)

theorem eq_or_mem_of_mem_put {m : Keyed α} {key : String} {value : α} {entry : String × α}
    (member : entry ∈ put m key value) : entry = (key, value) ∨ entry ∈ m := by
  induction m with
  | nil => exact .inl (List.mem_singleton.mp member)
  | cons first rest ih =>
    obtain ⟨k, a⟩ := first
    unfold put at member
    split at member
    · next same =>
      rcases List.mem_cons.mp member with rfl | later
      · exact .inl (same ▸ rfl)
      · exact .inr (List.mem_cons_of_mem _ later)
    · rcases List.mem_cons.mp member with rfl | later
      · exact .inr List.mem_cons_self
      · rcases ih later with new | before
        · exact .inl new
        · exact .inr (List.mem_cons_of_mem _ before)

theorem has_iff {m : Keyed α} {key : String} : has m key = true ↔ key ∈ keys m := by
  rw [has, Option.isSome_iff_ne_none, ne_eq, get?_eq_none_iff]
  simp

/-- Storing adds a key at the end unless it is there already. -/
theorem keys_put (m : Keyed α) (key : String) (value : α) :
    keys (put m key value) = if key ∈ keys m then keys m else keys m ++ [key] := by
  induction m with
  | nil => simp [put, keys]
  | cons entry rest ih =>
    obtain ⟨k, a⟩ := entry
    have hkeys : keys ((k, a) :: rest) = k :: keys rest := rfl
    by_cases h : k = key
    · subst h
      simp [put, keys]
    · have hk : ¬ key = k := fun e => h e.symm
      have hput : keys (put ((k, a) :: rest) key value) = k :: keys (put rest key value) := by
        simp [put, h, keys]
      rw [hput, ih, hkeys]
      by_cases hin : key ∈ keys rest <;> simp [hin, hk]

theorem get?_map (m : Keyed α) (f : String → α → β) (key : String) :
    get? (m.map fun entry => (entry.1, f entry.1 entry.2)) key = (get? m key).map (f key) := by
  induction m with
  | nil => rfl
  | cons entry rest ih =>
    obtain ⟨k, a⟩ := entry
    rw [List.map_cons, get?, get?, ih]
    split
    · next same => rw [same, Option.map_some]
    · rfl

theorem nodup_keys_put {m : Keyed α} (distinct : (keys m).Nodup) (key : String) (value : α) :
    (keys (put m key value)).Nodup := by
  rw [keys_put]
  split
  · exact distinct
  · next fresh =>
    refine List.nodup_append.mpr ⟨distinct, by simp, fun other member last listed same => ?_⟩
    subst same
    exact fresh (List.mem_singleton.mp listed ▸ member)

theorem nodup_keys_merge {m : Keyed α} (distinct : (keys m).Nodup) (n : List (String × α)) :
    (keys (merge m n)).Nodup := by
  induction n generalizing m with
  | nil => exact distinct
  | cons entry rest ih => exact ih (nodup_keys_put distinct entry.1 entry.2)

end Keyed

end ResourceGraph
