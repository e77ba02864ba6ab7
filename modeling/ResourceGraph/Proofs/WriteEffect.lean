import ResourceGraph.Proofs.WriteOrder

/-!
The effect of a write. What a target addresses is afterwards what was written, or the list that was
there with it at the end; everything else is as it was, but for what had to be made on the way:
objects and lists where nothing was, an object in the place of a null element, and empty objects
before an element beyond the end. A write succeeds where all that is on the way already has the
shape that the address needs, and nowhere else.
-/

namespace ResourceGraph

open Edit Value Revision

/-- Everything is as before but for what is under one key, which comes last where it is new. -/
structure Keyed.SameBut {α : Type} (key : String) (before after : Keyed α) : Prop where
  others : ∀ other, other ≠ key → get? after other = get? before other
  order : keys after = if key ∈ keys before then keys before else keys before ++ [key]

/-- The elements are as before but for the one at a place. A list that is too short is made just
long enough, with empty objects before the place. -/
structure Value.SameButAt (place : Nat) (before after : List Json) : Prop where
  length : after.length = max before.length (place + 1)
  others : ∀ other < before.length, other ≠ place → after[other]? = before[other]?
  padded : ∀ other < place, before.length ≤ other → after[other]? = some (.object [])

/-- What an element has before a write: its members where it is an object, and none where it is
missing or null. -/
inductive Value.ElementHas (items : List Json) (place : Nat) : List (String × Json) → Prop
  | missing (none : items[place]? = none) : ElementHas items place []
  | null (there : items[place]? = some .null) : ElementHas items place []
  | object {fields : List (String × Json)} (there : items[place]? = some (.object fields)) :
    ElementHas items place fields

namespace Address

variable (params : List (String × Json))

/-- What is on the way to the address has the shape that it needs. -/
def Fits : Address → Prop
  | key _ => True
  | member name _ => ∀ v ∈ Keyed.get? params name, ∃ fields, v = .object fields
  | append name => ∀ v ∈ Keyed.get? params name, ∃ items, v = .list items
  | elementMember name place _ => ∀ v ∈ Keyed.get? params name, ∃ items, v = .list items ∧
      ∀ w ∈ items[place]?, w = .null ∨ ∃ fields, w = .object fields
  | elementAppend name place inner => ∀ v ∈ Keyed.get? params name, ∃ items, v = .list items ∧
      ∀ w ∈ items[place]?, w = .null ∨ ∃ fields, w = .object fields ∧
        ∀ u ∈ Keyed.get? fields inner, ∃ others, u = .list others

/-- What is at the address, where the list that is added to is what is at an end. -/
def read? : Address → Option Json
  | key name | append name => Keyed.get? params name
  | member name inner => (Keyed.get? params name).bind fun v => v.member? inner
  | elementMember name place inner | elementAppend name place inner =>
    ((Keyed.get? params name).bind items?).bind fun items => items[place]?.bind fun v => v.member? inner

/-- What is at the address after a write: the value, or the list that was there with the value at
its end. -/
def written (value : Json) (address : Address) : Json :=
  match address with
  | key _ | member .. | elementMember .. => value
  | append _ | elementAppend .. => .list (((address.read? params).bind items?).getD [] ++ [value])

/-- All but what is at the address is as before, and what is missing on the way is made. -/
def Spares (after : List (String × Json)) : Address → Prop
  | key name | append name => Keyed.SameBut name params after
  | member name inner => Keyed.SameBut name params after ∧ ∃ fields fields',
      (Keyed.get? params name).getD (.object []) = .object fields ∧
      Keyed.get? after name = some (.object fields') ∧ Keyed.SameBut inner fields fields'
  | elementMember name place inner | elementAppend name place inner =>
    Keyed.SameBut name params after ∧ ∃ items items',
      (Keyed.get? params name).getD (.list []) = .list items ∧
      Keyed.get? after name = some (.list items') ∧ SameButAt place items items' ∧ ∃ fields fields',
        ElementHas items place fields ∧ items'[place]? = some (.object fields') ∧
        Keyed.SameBut inner fields fields'

end Address

/-! ## Revisions and what they leave -/

theorem Keyed.sameBut_put {α : Type} (m : Keyed α) (key : String) (value : α) :
    SameBut key m (put m key value) :=
  ⟨fun _ other => get?_put_of_ne m value other, keys_put m key value⟩

namespace Revision

variable {o : Option Json} {key : String} {place : Nat} {revise : Revision} {after : Json}

private theorem adding_gives {value : Json} : adding value o = some after ↔
    ∃ items, o.getD (.list []) = .list items ∧ after = .list (items ++ [value]) := by
  unfold adding
  constructor
  · intro added
    obtain ⟨items, found, rfl⟩ := Option.map_eq_some_iff.mp added
    exact ⟨items, eq_list_of_items? found, rfl⟩
  · rintro ⟨items, there, rfl⟩
    rw [there]
    rfl

theorem ofMember_gives : ofMember key revise o = some after ↔
    ∃ fields v, o.getD (.object []) = .object fields ∧ revise (Keyed.get? fields key) = some v ∧
      after = .object (Keyed.put fields key v) := by
  unfold ofMember under
  constructor
  · intro revised
    obtain ⟨_, done, rfl⟩ := Option.map_eq_some_iff.mp revised
    obtain ⟨fields, found, done⟩ := Option.bind_eq_some_iff.mp done
    obtain ⟨v, made, rfl⟩ := Option.map_eq_some_iff.mp done
    exact ⟨fields, v, eq_object_of_fields? found, made, rfl⟩
  · rintro ⟨fields, v, there, made, rfl⟩
    rw [there]
    simp [fields?, made]

private theorem ofElement_gives : ofElement place revise o = some after ↔
    ∃ items v, o.getD (.list []) = .list items ∧ revise (some (found place items)) = some v ∧
      after = .list (placed place items v) := by
  unfold ofElement
  constructor
  · intro revised
    obtain ⟨items, listed, done⟩ := Option.bind_eq_some_iff.mp revised
    obtain ⟨v, made, rfl⟩ := Option.map_eq_some_iff.mp done
    exact ⟨items, v, eq_list_of_items? listed, made, rfl⟩
  · rintro ⟨items, v, there, made, rfl⟩
    rw [there]
    simp [items?, made]

private theorem found_object {items : List Json} {fields : List (String × Json)} :
    found place items = .object fields ↔ ElementHas items place fields := by
  rw [found_eq, List.getD_eq_getElem?_getD]
  constructor
  · intro same
    cases there : items[place]? with
    | none =>
      rw [there] at same
      cases same
      exact .missing there
    | some w =>
      rw [there, Option.getD_some] at same
      cases w with
      | null =>
        cases same
        exact .null there
      | object members =>
        cases same
        exact .object there
      | _ => cases same
  · rintro (none | null | there)
    · rw [none]
      rfl
    · rw [null]
      rfl
    · rw [there]
      rfl

/-- A member of an element is revised in the object that the element is or becomes. -/
theorem ofElement_ofMember_gives : ofElement place (ofMember key revise) o = some after ↔
    ∃ items fields v, o.getD (.list []) = .list items ∧ ElementHas items place fields ∧
      revise (Keyed.get? fields key) = some v ∧
      after = .list (placed place items (.object (Keyed.put fields key v))) := by
  rw [ofElement_gives]
  constructor
  · rintro ⟨items, w, there, revised, rfl⟩
    obtain ⟨fields, v, element, made, rfl⟩ := ofMember_gives.mp revised
    exact ⟨items, fields, v, there, found_object.mp element, made, rfl⟩
  · rintro ⟨items, fields, v, there, element, made, rfl⟩
    exact ⟨items, _, there, ofMember_gives.mpr ⟨fields, v, found_object.mpr element, made, rfl⟩, rfl⟩

private theorem sameButAt_placed (place : Nat) (items : List Json) (v : Json) :
    SameButAt place items (placed place items v) where
  length := length_placed items place v
  others other inside apart := by
    rw [getElem?_placed, if_neg apart, if_pos (by omega), List.getD_eq_getElem?_getD,
      List.getElem?_eq_getElem inside]
    rfl
  padded other before beyond := by
    rw [getElem?_placed, if_neg (by omega), if_pos (by omega), List.getD_eq_getElem?_getD,
      List.getElem?_eq_none beyond]
    rfl

private theorem getElem?_placed_self (place : Nat) (items : List Json) (v : Json) :
    (placed place items v)[place]? = some v := by
  rw [getElem?_placed, if_pos rfl]

end Revision

/-! ## Shapes -/

section Shapes

variable {o : Option Json}

/-- What is missing has every shape, being made with it. -/
theorem getD_list_iff (holds : List Json → Prop) (empty : holds []) :
    (∃ items, o.getD (.list []) = .list items ∧ holds items) ↔ ∀ v ∈ o, ∃ items, v = .list items ∧
      holds items := by
  cases o with
  | none => simpa using empty
  | some v => simp

private theorem getD_object_iff (holds : List (String × Json) → Prop) (empty : holds []) :
    (∃ fields, o.getD (.object []) = .object fields ∧ holds fields) ↔
      ∀ v ∈ o, ∃ fields, v = .object fields ∧ holds fields := by
  cases o with
  | none => simpa using empty
  | some v => simp

private theorem elementHas_iff (items : List Json) (place : Nat) (holds : List (String × Json) → Prop)
    (empty : holds []) :
    (∃ fields, ElementHas items place fields ∧ holds fields) ↔
      ∀ w ∈ items[place]?, w = .null ∨ ∃ fields, w = .object fields ∧ holds fields := by
  constructor
  · rintro ⟨fields, has, held⟩ w there
    cases has with
    | missing none => cases none.symm.trans there
    | null null => exact .inl (Option.some.inj (there.symm.trans null))
    | object object => exact .inr ⟨fields, Option.some.inj (there.symm.trans object), held⟩
  · intro each
    cases there : items[place]? with
    | none => exact ⟨[], .missing there, empty⟩
    | some w =>
      rcases each w there with rfl | ⟨fields, rfl, held⟩
      · exact ⟨[], .null there, empty⟩
      · exact ⟨fields, .object there, held⟩

private theorem items_of_getD {items : List Json} (there : o.getD (.list []) = .list items) :
    (o.bind items?).getD [] = items := by
  cases o with
  | none =>
    cases there
    rfl
  | some v =>
    rw [Option.getD_some] at there
    subst there
    rfl

private theorem member_of_element {items : List Json} {place : Nat} {fields : List (String × Json)}
    (there : o.getD (.list []) = .list items) (has : ElementHas items place fields) (inner : String) :
    ((o.bind items?).bind fun items => items[place]?.bind fun v => v.member? inner) =
      Keyed.get? fields inner := by
  cases o with
  | none =>
    cases there
    cases has with
    | missing none => rfl
    | null null => cases null
    | object object => cases object
  | some v =>
    rw [Option.getD_some] at there
    subst there
    rw [Option.bind_some, items?, Option.bind_some]
    rcases has with none | null | object
    · rw [none]
      rfl
    · rw [null]
      rfl
    · rw [object]
      rfl

end Shapes

namespace Address

variable {params after : List (String × Json)} {value : Json}

/-- A revision is possible where what is on the way fits. -/
theorem revision_gives_iff (value : Json) (address : Address) :
    (∃ v, address.revision value (Keyed.get? params address.name) = some v) ↔ address.Fits params := by
  have empty : ∀ place, ElementHas [] place [] := fun place => .missing rfl
  cases address with
  | key name => exact iff_of_true ⟨value, rfl⟩ trivial
  | member name inner =>
    have shape := getD_object_iff (o := Keyed.get? params name) (fun _ => True) trivial
    simpa [revision, ofMember_gives, storing, Fits, Address.name] using shape
  | append name =>
    have shape := getD_list_iff (o := Keyed.get? params name) (fun _ => True) trivial
    simpa [revision, adding_gives, Fits, Address.name] using shape
  | elementMember name place inner =>
    calc (∃ v, ofElement place (ofMember inner (storing value)) (Keyed.get? params name) = some v)
      _ ↔ ∃ items, (Keyed.get? params name).getD (.list []) = .list items ∧
          ∃ fields, ElementHas items place fields := by
        simp [ofElement_ofMember_gives, storing]
      _ ↔ ∀ v ∈ Keyed.get? params name, ∃ items, v = .list items ∧
          ∃ fields, ElementHas items place fields := getD_list_iff _ ⟨[], empty place⟩
      _ ↔ (elementMember name place inner).Fits params :=
        forall₂_congr fun v _ => exists_congr fun items => and_congr_right fun _ => by
          simpa using elementHas_iff items place (fun _ => True) trivial
  | elementAppend name place inner =>
    calc (∃ v, ofElement place (ofMember inner (adding value)) (Keyed.get? params name) = some v)
      _ ↔ ∃ items, (Keyed.get? params name).getD (.list []) = .list items ∧
          ∃ fields, ElementHas items place fields ∧
            ∃ others, (Keyed.get? fields inner).getD (.list []) = .list others := by
        simp [ofElement_ofMember_gives, adding_gives]
      _ ↔ ∀ v ∈ Keyed.get? params name, ∃ items, v = .list items ∧
          ∃ fields, ElementHas items place fields ∧
            ∃ others, (Keyed.get? fields inner).getD (.list []) = .list others :=
        getD_list_iff _ ⟨[], empty place, [], rfl⟩
      _ ↔ (elementAppend name place inner).Fits params :=
        forall₂_congr fun v _ => exists_congr fun items => and_congr_right fun _ => by
          rw [elementHas_iff _ _ _ ⟨[], rfl⟩]
          refine forall₂_congr fun w _ => or_congr_right <| exists_congr fun fields =>
            and_congr_right fun _ => ?_
          simpa using getD_list_iff (o := Keyed.get? fields inner) (fun _ => True) trivial

/-- What a revision leaves under its key is read at the address, and spares the rest. -/
theorem effect_of_revision (address : Address) {v : Json}
    (revised : address.revision value (Keyed.get? params address.name) = some v) :
    address.read? (Keyed.put params address.name v) = some (address.written params value) ∧
      address.Spares params (Keyed.put params address.name v) := by
  have around := Keyed.sameBut_put params address.name v
  have put := Keyed.get?_put_self params address.name v
  cases address <;> dsimp only [Address.name] at revised around put ⊢
  case key name =>
    cases revised
    exact ⟨put, around⟩
  case member name inner =>
    obtain ⟨fields, _, there, stored, rfl⟩ := ofMember_gives.mp revised
    cases stored
    refine ⟨?_, around, fields, _, there, put, Keyed.sameBut_put _ _ _⟩
    rw [read?, put, Option.bind_some, member?_object, Keyed.get?_put_self, written]
  case append name =>
    obtain ⟨items, there, rfl⟩ := adding_gives.mp revised
    have before : (((append name).read? params).bind items?).getD [] = items := items_of_getD there
    exact ⟨by rw [read?, put, written, before], around⟩
  case elementMember name place inner =>
    obtain ⟨items, fields, _, there, has, stored, rfl⟩ := ofElement_ofMember_gives.mp revised
    cases stored
    refine ⟨?_, around, items, _, there, put, sameButAt_placed _ _ _, fields, _, has,
      getElem?_placed_self _ _ _, Keyed.sameBut_put _ _ _⟩
    rw [read?, put, Option.bind_some, items?, Option.bind_some, getElem?_placed_self, Option.bind_some,
      member?_object, Keyed.get?_put_self, written]
  case elementAppend name place inner =>
    obtain ⟨items, fields, _, there, has, added, rfl⟩ := ofElement_ofMember_gives.mp revised
    obtain ⟨others, already, rfl⟩ := adding_gives.mp added
    refine ⟨?_, around, items, _, there, put, sameButAt_placed _ _ _, fields, _, has,
      getElem?_placed_self _ _ _, Keyed.sameBut_put _ _ _⟩
    have inside : (elementAppend name place inner).read? params = Keyed.get? fields inner :=
      member_of_element there has inner
    rw [read?, put, Option.bind_some, items?, Option.bind_some, getElem?_placed_self, Option.bind_some,
      member?_object, Keyed.get?_put_self, written, inside, items_of_getD already]

end Address

namespace Target

/-- **What a write does.** A write into parameters that are JSON succeeds where everything on the
way to the address has the shape that the address needs, and nowhere else. Then the address is read
as what was written, and all the rest is as before. -/
theorem write_effect {params : List (String × Json)} (textual : Textual (.object params))
    (target : Target) (value : Json) :
    ((target.write value params).fault = none ↔ target.address.Fits params) ∧
      ((target.write value params).fault = none →
        target.address.read? (target.write value params).after =
          some (target.address.written params value) ∧
          target.address.Spares params (target.write value params).after) := by
  have same := result?_write value target textual
  have fits : _ ↔ target.address.Fits params := target.address.revision_gives_iff value
  have result : ∀ after, (target.write value params).result? = some after ↔
      (target.write value params).fault = none ∧ (target.write value params).after = after := by
    intro after
    unfold Edited.result?
    cases (target.write value params).fault <;> simp
  have success : (target.write value params).fault = none ↔
      ∃ v, target.address.revision value (Keyed.get? params target.address.name) = some v := by
    constructor
    · intro succeeded
      have gave := (result _).mpr ⟨succeeded, rfl⟩
      rw [same] at gave
      obtain ⟨v, revised, -⟩ := Option.map_eq_some_iff.mp gave
      exact ⟨v, revised⟩
    · rintro ⟨v, revised⟩
      rw [under, revised, Option.map_some, result] at same
      exact same.1
  refine ⟨success.trans fits, fun succeeded => ?_⟩
  obtain ⟨v, revised⟩ := success.mp succeeded
  rw [under, revised, Option.map_some, result] at same
  rw [same.2]
  exact target.address.effect_of_revision revised

/-- People, of whom the first has a name and the second is null. -/
def people : List (String × Json) := [("people", .list [.object [("name", .str "x")], .null])]

/-- The target of a tag of one of the people. -/
def tagging (place : Nat) : Target := ⟨s!"people[{place}].tags[]", .elementAppend "people" place "tags"⟩

/-- A tag can be added to someone who was null, and to someone beyond the end. -/
theorem write_effect_people :
    Textual (.object people) ∧ (∀ place, (tagging place).address.Fits people) ∧
      (tagging 1).address.read? ((tagging 1).write (.str "t") people).after = some (.list [.str "t"]) ∧
      (tagging 3).address.Spares people ((tagging 3).write (.str "t") people).after ∧
      ((tagging 3).write (.str "t") people).after =
        [("people", .list [.object [("name", .str "x")], .null,
        .object [], .object [("tags", .list [.str "t"])]])] := by
  have textual : Textual (.object people) := by simp [people, Textual, TextualFields, TextualItems]
  have fits : ∀ place, (tagging place).address.Fits people := by
    intro place v there
    cases there
    refine ⟨_, rfl, fun w found => ?_⟩
    rcases place with _ | _ | place
    · cases found
      exact .inr ⟨_, rfl, fun u absent => by cases absent⟩
    · cases found
      exact .inl rfl
    · cases found
  have effect : ∀ place, _ := fun place =>
    (write_effect textual (tagging place) (.str "t")).2
      ((write_effect textual (tagging place) (.str "t")).1.mpr (fits place))
  exact ⟨textual, fits, (effect 1).1, (effect 3).2, rfl⟩

end Target

end ResourceGraph
