import ResourceGraph.Proofs.Likeness
import ResourceGraph.Proofs.Reordering
import ResourceGraph.Target.Write

/-!
Revisions: what writes make of what is at a place, be it a key of the parameters, a member of an
object or an element of a list. Revisions of different members and of different elements can be
exchanged, and so can a revision that needs an object and one that needs a list, because then both
orders fail.
-/

namespace ResourceGraph

open Edit Value

/-- What a write makes of what is at a place, if anything is there. It may fail. -/
abbrev Revision := Option Json → Option Json

namespace Revision

/-- The revision of what is under a key. -/
def under (key : String) (revise : Revision) (fields : List (String × Json)) :
    Option (List (String × Json)) :=
  (revise (Keyed.get? fields key)).map (Keyed.put fields key)

/-- Puts a value in the place of whatever is there. -/
def storing (value : Json) : Revision := fun _ => some value

/-- Adds a value at the end of a list, which is empty where nothing is. -/
def adding (value : Json) : Revision := fun there =>
  (there.getD (.list [])).items?.map fun items => .list (items ++ [value])

/-- Revises a member of an object, which is empty where nothing is. -/
def ofMember (key : String) (revise : Revision) : Revision := fun there =>
  ((there.getD (.object [])).fields?.bind (under key revise)).map .object

/-- What a write finds at a place of a list: an empty object where nothing or null is. -/
def found (place : Nat) (items : List Json) : Json :=
  startingFrom ((extended place items).getD place .null)

/-- A list, made long enough to have the place, with a value put there. -/
def placed (place : Nat) (items : List Json) (value : Json) : List Json :=
  (extended place items).set place value

/-- Revises an element of a list, which is empty where nothing is. -/
def ofElement (place : Nat) (revise : Revision) : Revision := fun there =>
  (there.getD (.list [])).items?.bind fun items =>
    (revise (some (found place items))).map fun v => .list (placed place items v)

/-- The revision comes out alike where what is there is alike. -/
def Respectful (revise : Revision) : Prop :=
  ∀ o o', o.map sorted = o'.map sorted → Option.Rel Alike (revise o) (revise o')

/-- Either of two revisions of one thing can be made first. -/
def Exchangeable (first second : Revision) : Prop :=
  ∀ o, Option.Rel Alike ((first o).bind fun v => second (some v))
    ((second o).bind fun v => first (some v))

variable {revise first second : Revision} {fields fields' : List (String × Json)}

section Respect

private theorem alike_put (alike : AlikeFields fields fields') (key : String) {v w : Json}
    (h : Alike v w) :
    AlikeFields (Keyed.put fields key v) (Keyed.put fields' key w) := by
  refine alikeFields_iff.mpr fun other => ?_
  by_cases same : other = key
  · subst same
    rw [Keyed.get?_put_self, Keyed.get?_put_self, Option.map_some, Option.map_some, h]
  · rw [Keyed.get?_put_of_ne _ _ same, Keyed.get?_put_of_ne _ _ same]
    exact alikeFields_iff.mp alike other

theorem alike_getD {o o' : Option Json} (same : o.map sorted = o'.map sorted) (fresh : Json) :
    Alike (o.getD fresh) (o'.getD fresh) := by
  cases o with
  | none =>
    cases o' with
    | none => exact Alike.refl fresh
    | some w => simp at same
  | some v =>
    cases o' with
    | none => simp at same
    | some w => exact Option.some.inj same

theorem under_respects (respectful : Respectful revise) (key : String)
    (alike : AlikeFields fields fields') :
    Option.Rel AlikeFields (under key revise fields) (under key revise fields') :=
  rel_map (respectful _ _ (alikeFields_iff.mp alike key)) fun _ _ h => alike_put alike key h

theorem respectful_storing (value : Json) : Respectful (storing value) :=
  fun _ _ _ => .some (Alike.refl value)

theorem respectful_adding (value : Json) : Respectful (adding value) := by
  intro o o' same
  have lists := (alike_getD same (.list [])).items?
  exact rel_map lists fun _ _ h => alike_list.mpr (by rw [List.map_append, List.map_append, h])

theorem respectful_member (respectful : Respectful revise) (key : String) :
    Respectful (ofMember key revise) := by
  intro o o' same
  have objects := (alike_getD same (.object [])).fields?
  have revised := rel_bind objects fun _ _ h => under_respects respectful key h
  exact rel_map revised fun _ _ h => h

private theorem map_sorted_extended (place : Nat) (items : List Json) :
    (extended place items).map sorted = extended place (items.map sorted) := by
  have fresh : sorted (.object [] : Json) = .object [] := rfl
  simp [extended, fresh]

private theorem sorted_startingFrom (v : Json) : (startingFrom v).sorted = startingFrom v.sorted := by
  cases v <;> rfl

private theorem sorted_found (place : Nat) (items : List Json) :
    (found place items).sorted = found place (items.map sorted) := by
  have null : sorted (.null : Json) = .null := rfl
  rw [found, found, sorted_startingFrom, ← map_sorted_extended, List.getD_eq_getElem?_getD,
    List.getD_eq_getElem?_getD, List.getElem?_map]
  cases (extended place items)[place]? <;> rfl

theorem respectful_element (respectful : Respectful revise) (place : Nat) :
    Respectful (ofElement place revise) := by
  intro o o' same
  have lists := (alike_getD same (.list [])).items?
  refine rel_bind lists fun items items' h => ?_
  have elements : (some (found place items)).map sorted = (some (found place items')).map sorted := by
    rw [Option.map_some, Option.map_some, sorted_found, sorted_found, h]
  refine rel_map (respectful _ _ elements) fun v w h' => alike_list.mpr ?_
  rw [placed, placed, List.map_set, List.map_set, map_sorted_extended, map_sorted_extended, h, h']

end Respect

section Exchange

/-- Values stored under two keys can be stored in either order. -/
theorem alike_put_put {key key' : String} (apart : key ≠ key') (fields : List (String × Json))
    (v w : Json) :
    AlikeFields (Keyed.put (Keyed.put fields key v) key' w)
      (Keyed.put (Keyed.put fields key' w) key v) := by
  refine alikeFields_iff.mpr fun other => ?_
  by_cases first : other = key
  · subst first
    rw [Keyed.get?_put_self, Keyed.get?_put_of_ne _ _ apart, Keyed.get?_put_self]
  · rw [Keyed.get?_put_of_ne _ _ first]
    by_cases second : other = key'
    · subst second
      rw [Keyed.get?_put_self, Keyed.get?_put_self]
    · rw [Keyed.get?_put_of_ne _ _ second, Keyed.get?_put_of_ne _ _ second,
        Keyed.get?_put_of_ne _ _ first]

/-- Revisions under two keys can be made in either order. -/
theorem under_exchange_of_ne {key key' : String} (apart : key ≠ key') (first second : Revision)
    (fields : List (String × Json)) :
    Option.Rel AlikeFields ((under key first fields).bind (under key' second))
      ((under key' second fields).bind (under key first)) := by
  unfold under
  cases revised : first (Keyed.get? fields key) with
  | none =>
    cases revised' : second (Keyed.get? fields key') with
    | none => exact .none
    | some w => simp [Keyed.get?_put_of_ne _ _ apart, revised]
  | some v =>
    cases revised' : second (Keyed.get? fields key') with
    | none => simp [Keyed.get?_put_of_ne _ _ apart.symm, revised']
    | some w =>
      simpa [Keyed.get?_put_of_ne _ _ apart, Keyed.get?_put_of_ne _ _ apart.symm, revised, revised']
        using Option.Rel.some (alike_put_put apart fields v w)

private theorem put_put (fields : List (String × Json)) (key : String) (v w : Json) :
    Keyed.put (Keyed.put fields key v) key w = Keyed.put fields key w := by
  induction fields with
  | nil => simp [Keyed.put]
  | cons entry rest ih =>
    obtain ⟨k, a⟩ := entry
    by_cases same : k = key <;> simp [Keyed.put, same, ih]

/-- Two revisions under one key are one revision there. -/
theorem under_bind_under (key : String) (first second : Revision) (fields : List (String × Json)) :
    (under key first fields).bind (under key second) =
      ((first (Keyed.get? fields key)).bind fun v => second (some v)).map (Keyed.put fields key) := by
  unfold under
  cases first (Keyed.get? fields key) with
  | none => rfl
  | some v =>
    rw [Option.map_some, Option.bind_some, Option.bind_some, Keyed.get?_put_self]
    cases second (some v) with
    | none => rfl
    | some w => rw [Option.map_some, Option.map_some, put_put]

theorem under_exchange (exchangeable : Exchangeable first second) (key : String)
    (fields : List (String × Json)) :
    Option.Rel AlikeFields ((under key first fields).bind (under key second))
      ((under key second fields).bind (under key first)) := by
  rw [under_bind_under, under_bind_under]
  exact rel_map (exchangeable _) fun _ _ h => alike_put rfl key h

theorem Exchangeable.symm (exchangeable : Exchangeable first second) : Exchangeable second first :=
  fun o => rel_symm (fun _ _ => Eq.symm) (exchangeable o)

/-- Two revisions of members of one object are made in the object that is there. -/
theorem member_bind_member (key key' : String) (first second : Revision) (o : Option Json) :
    ((ofMember key first o).bind fun v => ofMember key' second (some v)) =
      ((o.getD (.object [])).fields?.bind fun fields =>
        (under key first fields).bind (under key' second)).map .object := by
  unfold ofMember
  cases (o.getD (.object [])).fields? with
  | none => rfl
  | some fields =>
    rw [Option.bind_some, Option.bind_some]
    cases under key first fields <;> rfl

/-- Revisions of two members can be exchanged. -/
theorem exchangeable_member {key key' : String} (apart : key ≠ key') (first second : Revision) :
    Exchangeable (ofMember key first) (ofMember key' second) := by
  intro o
  rw [member_bind_member, member_bind_member]
  cases (o.getD (.object [])).fields? with
  | none => exact .none
  | some fields => exact rel_map (under_exchange_of_ne apart first second fields) fun _ _ h => h

/-- What is there cannot be both an object and a list: whichever comes first, the other fails. -/
theorem exchangeable_member_element (key : String) (place : Nat) (first second : Revision) :
    Exchangeable (ofMember key first) (ofElement place second) := by
  intro o
  have elementFails : ((ofMember key first o).bind fun v => ofElement place second (some v)) = none := by
    refine Option.bind_eq_none_iff.mpr fun v revised => ?_
    obtain ⟨fields, -, rfl⟩ := Option.map_eq_some_iff.mp revised
    rfl
  have memberFails : ((ofElement place second o).bind fun v => ofMember key first (some v)) = none := by
    refine Option.bind_eq_none_iff.mpr fun v revised => ?_
    obtain ⟨items, -, there⟩ := Option.bind_eq_some_iff.mp revised
    obtain ⟨w, -, rfl⟩ := Option.map_eq_some_iff.mp there
    rfl
  rw [elementFails, memberFails]
  exact .none

section Places

variable (items : List Json)

private theorem getElem?_extended (place other : Nat) :
    (extended place items)[other]? =
      if other < max items.length (place + 1) then some (items.getD other (.object [])) else none := by
  unfold extended
  rw [List.getD_eq_getElem?_getD]
  by_cases inside : other < items.length
  · have reached : other < max items.length (place + 1) := by omega
    rw [List.getElem?_append_left inside, if_pos reached, List.getElem?_eq_getElem inside]
    rfl
  · have outside : items[other]? = none := List.getElem?_eq_none (by omega)
    rw [List.getElem?_append_right (by omega), List.getElem?_replicate, outside]
    refine if_congr ?_ rfl rfl
    omega

theorem getElem?_placed (place other : Nat) (v : Json) :
    (placed place items v)[other]? =
      if other = place then some v
      else if other < max items.length (place + 1) then some (items.getD other (.object []))
      else none := by
  unfold placed
  by_cases same : place = other
  · subst same
    have inside : place < (extended place items).length := by
      simp only [extended, List.length_append, List.length_replicate]
      omega
    rw [List.getElem?_set_self inside, if_pos rfl]
  · rw [List.getElem?_set_ne same, if_neg (Ne.symm same), getElem?_extended]

theorem length_placed (place : Nat) (v : Json) :
    (placed place items v).length = max items.length (place + 1) := by
  simp only [placed, extended, List.length_set, List.length_append, List.length_replicate]
  omega

theorem found_eq (place : Nat) :
    found place items = startingFrom (items.getD place (.object [])) := by
  have reached : place < max items.length (place + 1) := by omega
  rw [found, List.getD_eq_getElem?_getD, getElem?_extended, if_pos reached, Option.getD_some]

theorem getD_placed (place other : Nat) (v : Json) :
    (placed place items v).getD other (.object []) =
      if other = place then v else items.getD other (.object []) := by
  rw [List.getD_eq_getElem?_getD, getElem?_placed]
  split
  · rfl
  · split
    · rfl
    · next beyond => rw [List.getD_eq_getElem?_getD, List.getElem?_eq_none (by omega)]

/-- Values put at two places can be put there in either order. -/
theorem placed_comm {place place' : Nat} (apart : place ≠ place') (v w : Json) :
    placed place' (placed place items v) w = placed place (placed place' items w) v := by
  refine List.ext_getElem? fun other => ?_
  simp only [getElem?_placed, length_placed, getD_placed]
  by_cases first : other = place
  · have second : other ≠ place' := first ▸ apart
    have reached : other < max (max items.length (place + 1)) (place' + 1) := by omega
    rw [if_neg second, if_pos first, if_pos reached, if_pos first]
  · by_cases second : other = place'
    · have reached : other < max (max items.length (place' + 1)) (place + 1) := by omega
      rw [if_pos second, if_neg first, if_pos reached, if_pos second]
    · simp only [first, second, if_false]
      refine if_congr ?_ rfl rfl
      omega

private theorem placed_placed (place : Nat) (v w : Json) :
    placed place (placed place items v) w = placed place items w := by
  refine List.ext_getElem? fun other => ?_
  simp only [getElem?_placed, length_placed, getD_placed]
  by_cases same : other = place
  · simp only [same, if_true]
  · simp only [same, if_false]
    refine if_congr ?_ rfl rfl
    omega

end Places

/-- Two revisions of elements of one list are made in the list that is there. -/
theorem element_bind_element (place place' : Nat) (first second : Revision) (o : Option Json) :
    ((ofElement place first o).bind fun v => ofElement place' second (some v)) =
      (o.getD (.list [])).items?.bind fun items =>
        (first (some (found place items))).bind fun v =>
          (second (some (found place' (placed place items v)))).map fun w =>
            .list (placed place' (placed place items v) w) := by
  unfold ofElement
  cases (o.getD (.list [])).items? with
  | none => rfl
  | some items =>
    rw [Option.bind_some, Option.bind_some]
    cases first (some (found place items)) <;> rfl

/-- Revisions of two elements can be exchanged. -/
theorem exchangeable_element_of_ne {place place' : Nat} (apart : place ≠ place')
    (first second : Revision) : Exchangeable (ofElement place first) (ofElement place' second) := by
  intro o
  rw [element_bind_element, element_bind_element]
  refine rel_of_eq Alike.refl (congrArg _ (funext fun items => ?_))
  have unseen : ∀ v, found place' (placed place items v) = found place' items := fun v => by
    rw [found_eq, found_eq, getD_placed, if_neg apart.symm]
  have unseen' : ∀ w, found place (placed place' items w) = found place items := fun w => by
    rw [found_eq, found_eq, getD_placed, if_neg apart]
  simp only [unseen, unseen', placed_comm items apart]
  cases first (some (found place items)) with
  | none => cases second (some (found place' items)) <;> rfl
  | some v => cases second (some (found place' items)) <;> rfl

/-- What leaves null nowhere is exchanged within an element as it is outside. -/
theorem Exchangeable.ofElement (exchangeable : Exchangeable first second) (place : Nat)
    (solid : ∀ o v, first o = some v → startingFrom v = v)
    (solid' : ∀ o v, second o = some v → startingFrom v = v) :
    Exchangeable (ofElement place first) (ofElement place second) := by
  intro o
  rw [element_bind_element, element_bind_element]
  cases (o.getD (.list [])).items? with
  | none => exact .none
  | some items =>
    -- Both orders start from what is found in the list and put one value back.
    have once : ∀ {f g : Revision}, (∀ o v, f o = some v → startingFrom v = v) →
        ((f (some (found place items))).bind fun v =>
          (g (some (found place (placed place items v)))).map fun w =>
            Value.list (placed place (placed place items v) w)) =
          ((f (some (found place items))).bind fun v => g (some v)).map fun w =>
            .list (placed place items w) := by
      intro f g solid
      cases revised : f (some (found place items)) with
      | none => rfl
      | some v =>
        rw [Option.bind_some, Option.bind_some, found_eq, getD_placed, if_pos rfl, solid _ v revised]
        simp only [placed_placed]
    rw [Option.bind_some, Option.bind_some, once solid, once solid']
    refine rel_map (exchangeable _) fun v w h => alike_list.mpr ?_
    rw [placed, placed, List.map_set, List.map_set, h]

theorem startingFrom_member {key : String} {o : Option Json} {v : Json}
    (revised : ofMember key revise o = some v) : startingFrom v = v := by
  obtain ⟨fields, -, rfl⟩ := Option.map_eq_some_iff.mp revised
  rfl

end Exchange

end Revision

end ResourceGraph
