import Mathlib.Data.Option.Basic
import Mathlib.Data.String.Basic
import ResourceGraph.Value.Basic

/-!
Trees compared without regard to the order of members. Two trees are alike when they are the same
once the members of every object stand in the order of their keys; for objects that says that alike
values are found under the same keys.
-/

namespace ResourceGraph

namespace Keyed

variable {α : Type}

/-- The map with a value stored under a key, at the place where keys in order have it. -/
def putSorted : Keyed α → String → α → Keyed α
  | [], key, value => [(key, value)]
  | (k, a) :: rest, key, value =>
    if key < k then (key, value) :: (k, a) :: rest
    else if key = k then (key, value) :: rest
    else (k, a) :: putSorted rest key value

/-- The keys are in order, and none is there twice. -/
def Ascending (m : Keyed α) : Prop := m.Pairwise fun a b => a.1 < b.1

private theorem get?_putSorted (m : Keyed α) (key other : String) (value : α) :
    get? (putSorted m key value) other = if key = other then some value else get? m other := by
  induction m with
  | nil => rfl
  | cons entry rest ih =>
    obtain ⟨k, a⟩ := entry
    unfold putSorted
    split
    · rfl
    · split
      · next same =>
        subst same
        by_cases h : key = other <;> simp [get?, h]
      · next less other' =>
        by_cases h : k = other
        · subst h
          simp [get?, other']
        · simp [get?, h, ih]

private theorem mem_putSorted {m : Keyed α} {key : String} {value : α} {entry : String × α}
    (member : entry ∈ putSorted m key value) : entry = (key, value) ∨ entry ∈ m := by
  induction m with
  | nil => exact .inl (List.mem_singleton.mp member)
  | cons first rest ih =>
    obtain ⟨k, a⟩ := first
    unfold putSorted at member
    split at member
    · exact List.mem_cons.mp member
    · split at member
      · exact (List.mem_cons.mp member).imp_right (List.mem_cons_of_mem _)
      · rcases List.mem_cons.mp member with rfl | later
        · exact .inr List.mem_cons_self
        · exact (ih later).imp_right (List.mem_cons_of_mem _)

theorem Ascending.putSorted {m : Keyed α} (ascending : Ascending m) (key : String) (value : α) :
    Ascending (putSorted m key value) := by
  induction m with
  | nil => exact List.pairwise_singleton _ _
  | cons first rest ih =>
    obtain ⟨k, a⟩ := first
    obtain ⟨least, ascendingRest⟩ := List.pairwise_cons.mp ascending
    unfold Keyed.putSorted
    split
    · next less =>
      refine List.pairwise_cons.mpr ⟨fun entry member => ?_, ascending⟩
      rcases List.mem_cons.mp member with rfl | later
      · exact less
      · exact less.trans (least entry later)
    · split
      · next same =>
        subst same
        exact List.pairwise_cons.mpr ⟨least, ascendingRest⟩
      · next notLess notSame =>
        have greater : k < key := lt_of_le_of_ne (not_lt.mp notLess) (Ne.symm notSame)
        refine List.pairwise_cons.mpr ⟨fun entry member => ?_, ih ascendingRest⟩
        rcases mem_putSorted member with rfl | before
        · exact greater
        · exact least entry before

private theorem get?_of_below {m : Keyed α} {key : String} (below : ∀ entry ∈ m, key < entry.1) :
    get? m key = none := by
  refine get?_eq_none_iff.mpr fun member => ?_
  obtain ⟨entry, there, rfl⟩ := List.mem_map.mp member
  exact lt_irrefl _ (below entry there)

/-- Ordered maps that hold the same under every key are equal. -/
theorem Ascending.ext {m n : Keyed α} (ascending : Ascending m) (ascending' : Ascending n)
    (same : ∀ key, get? m key = get? n key) : m = n := by
  induction m generalizing n with
  | nil =>
    cases n with
    | nil => rfl
    | cons entry rest =>
      have absurd := same entry.1
      simp [get?] at absurd
  | cons first rest ih =>
    cases n with
    | nil =>
      have absurd := same first.1
      simp [get?] at absurd
    | cons first' rest' =>
      obtain ⟨k, a⟩ := first
      obtain ⟨k', a'⟩ := first'
      obtain ⟨least, ascendingRest⟩ := List.pairwise_cons.mp ascending
      obtain ⟨least', ascendingRest'⟩ := List.pairwise_cons.mp ascending'
      -- A key below the other's first key would be found in one of the maps only.
      have firsts : k = k' := by
        rcases lt_trichotomy k k' with less | equal | greater
        · have found := same k
          have beyond : get? rest' k = none :=
            get?_of_below fun entry there => less.trans (least' entry there)
          simp [get?, less.ne', beyond] at found
        · exact equal
        · have found := same k'
          have beyond : get? rest k' = none :=
            get?_of_below fun entry there => greater.trans (least entry there)
          simp [get?, greater.ne', beyond] at found
      subst firsts
      have values : a = a' := by simpa [get?] using same k
      have rests : rest = rest' := by
        refine ih ascendingRest ascendingRest' fun key => ?_
        by_cases h : k = key
        · subst h
          rw [get?_of_below least, get?_of_below least']
        · simpa [get?, h] using same key
      rw [values, rests]

end Keyed

namespace Value

variable {ρ : Type}

mutual

/-- The tree with the members of every object in the order of their keys. -/
def sorted : Value ρ → Value ρ
  | .list items => .list (sortedItems items)
  | .object fields => .object (sortedFields fields)
  | v => v

/-- Elements with the members of every object in the order of their keys. -/
def sortedItems : List (Value ρ) → List (Value ρ)
  | [] => []
  | item :: rest => item.sorted :: sortedItems rest

/-- Members in the order of their keys, and within them as well. -/
def sortedFields : List (String × Value ρ) → List (String × Value ρ)
  | [] => []
  | (key, value) :: rest => Keyed.putSorted (sortedFields rest) key value.sorted

end

/-- The two trees differ in nothing but the order of members. -/
def Alike (v w : Value ρ) : Prop := v.sorted = w.sorted

instance [DecidableEq ρ] (v w : Value ρ) : Decidable (Alike v w) :=
  inferInstanceAs (Decidable (v.sorted = w.sorted))

/-- Objects of these members differ in nothing but the order of members. -/
def AlikeFields (fields fields' : List (String × Value ρ)) : Prop :=
  Alike (.object fields) (.object fields')

/-- The elements of a list. -/
def items? : Value ρ → Option (List (Value ρ))
  | .list items => some items
  | _ => none

theorem eq_list_of_items? {v : Value ρ} {items : List (Value ρ)} (found : v.items? = some items) :
    v = .list items := by
  cases v with
  | list items' => exact congrArg list (Option.some.inj found)
  | _ => cases found

theorem eq_object_of_fields? {v : Value ρ} {fields : List (String × Value ρ)}
    (found : v.fields? = some fields) : v = .object fields := by
  cases v with
  | object fields' => exact congrArg object (Option.some.inj found)
  | _ => cases found

private theorem sortedItems_eq_map (items : List (Value ρ)) : sortedItems items = items.map sorted := by
  induction items with
  | nil => rfl
  | cons item rest ih => rw [sortedItems, ih, List.map_cons]

private theorem get?_sortedFields (fields : List (String × Value ρ)) (key : String) :
    Keyed.get? (sortedFields fields) key = (Keyed.get? fields key).map sorted := by
  induction fields with
  | nil => rfl
  | cons entry rest ih =>
    obtain ⟨k, v⟩ := entry
    rw [sortedFields, Keyed.get?_putSorted, ih, Keyed.get?]
    split <;> rfl

private theorem ascending_sortedFields (fields : List (String × Value ρ)) :
    Keyed.Ascending (sortedFields fields) := by
  induction fields with
  | nil => exact .nil
  | cons entry rest ih => exact ih.putSorted entry.1 entry.2.sorted

theorem Alike.refl (v : Value ρ) : Alike v v := rfl

theorem alike_list {items items' : List (Value ρ)} :
    Alike (.list items) (.list items') ↔ items.map sorted = items'.map sorted := by
  simp [Alike, sorted, sortedItems_eq_map]

/-- **Objects are alike when alike values are found in them under every key.** -/
theorem alikeFields_iff {fields fields' : List (String × Value ρ)} :
    AlikeFields fields fields' ↔
      ∀ key, (Keyed.get? fields key).map sorted = (Keyed.get? fields' key).map sorted := by
  have eq_iff : AlikeFields fields fields' ↔ sortedFields fields = sortedFields fields' := by
    simp [AlikeFields, Alike, sorted]
  rw [eq_iff]
  constructor
  · intro same key
    rw [← get?_sortedFields, ← get?_sortedFields, same]
  · intro same
    refine (ascending_sortedFields fields).ext (ascending_sortedFields fields') fun key => ?_
    rw [get?_sortedFields, get?_sortedFields, same]

/-- Trees that are alike are both lists, of elements that are alike, or neither is. -/
theorem Alike.items? {v w : Value ρ} (alike : Alike v w) :
    Option.Rel (fun xs ys => xs.map sorted = ys.map sorted) v.items? w.items? := by
  cases v with
  | list items =>
    cases w with
    | list items' => exact .some (alike_list.mp alike)
    | _ => simp [Alike, sorted] at alike
  | _ =>
    cases w with
    | list items' => simp [Alike, sorted] at alike
    | _ => exact .none

/-- Trees that are alike are both objects, of members that are alike, or neither is. -/
theorem Alike.fields? {v w : Value ρ} (alike : Alike v w) :
    Option.Rel AlikeFields v.fields? w.fields? := by
  cases v with
  | object fields =>
    cases w with
    | object fields' => exact .some alike
    | _ => simp [Alike, sorted] at alike
  | _ =>
    cases w with
    | object fields' => simp [Alike, sorted] at alike
    | _ => exact .none

end Value

end ResourceGraph
