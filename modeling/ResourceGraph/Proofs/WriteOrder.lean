import ResourceGraph.Proofs.Revision

/-!
The order of writes. Writes to different places of the parameters can be exchanged: whatever stands
in the parameters, both orders succeed or both fail, and what they leave differs in the order of
members only. Two writes meet where one replaces or extends all that is under a key, or where both
go to one member of one place.
-/

namespace ResourceGraph

open Edit Value Revision

namespace Edited

/-- What an edit leaves, where nothing stopped it. -/
def result? {α : Type} (e : Edited α) : Option α :=
  match e.fault with
  | none => some e.after
  | some _ => none

theorem result?_map {α β : Type} (f : α → β) (e : Edited α) :
    (e.map f).result? = e.result?.map f := by
  obtain ⟨after, fault⟩ := e
  cases fault <;> rfl

end Edited

namespace Value

mutual

/-- The keys of every object in the tree are texts, as they are in JSON. An object with other keys
can be asked for a place, and answers by how many members it has: there, an earlier write would be
noticed. -/
def Textual : Json → Prop
  | .list items => TextualItems items
  | .object fields => TextualFields fields
  | .table _ => False
  | _ => True

/-- The keys of every object in the elements are texts. -/
def TextualItems : List Json → Prop
  | [] => True
  | v :: rest => v.Textual ∧ TextualItems rest

/-- The keys of every object in the members are texts. -/
def TextualFields : List (String × Json) → Prop
  | [] => True
  | (_, v) :: rest => v.Textual ∧ TextualFields rest

end

@[simp]
theorem textual_list {items : List Json} : Textual (.list items) ↔ ∀ v ∈ items, v.Textual := by
  rw [Textual]
  induction items with
  | nil => simp [TextualItems]
  | cons v rest ih => simp [TextualItems, ih]

@[simp]
theorem textual_object {fields : List (String × Json)} :
    Textual (.object fields) ↔ ∀ entry ∈ fields, entry.2.Textual := by
  rw [Textual]
  induction fields with
  | nil => simp [TextualFields]
  | cons entry rest ih => simp [TextualFields, ih]

end Value

/-- A write: a target, and the JSON that goes there. -/
structure Assignment where
  target : Target
  value : Json
  textual : value.Textual

namespace Address

/-- The address is a key of the parameters, or the end of the list there. -/
def IsBare : Address → Prop
  | key _ | append _ => True
  | _ => False

/-- Writes to the two addresses meet: they are under one key, and one of them is all that is there
or both are one member of one place. -/
def Dependent (a b : Address) : Prop :=
  a.name = b.name ∧ (a.IsBare ∨ b.IsBare ∨ (a.place? = b.place? ∧ a.inner? = b.inner?))

/-- What a write to the address makes of what is under its key. -/
def revision (address : Address) (value : Json) : Revision :=
  match address with
  | .key _ => storing value
  | .member _ inner => ofMember inner (storing value)
  | .append _ => adding value
  | .elementMember _ place inner => ofElement place (ofMember inner (storing value))
  | .elementAppend _ place inner => ofElement place (ofMember inner (adding value))

/-- A revision of a member: of the object under a key, or of an element of the list there. -/
def within (place : Option Nat) (inner : String) (revise : Revision) : Revision :=
  match place with
  | none => ofMember inner revise
  | some place => ofElement place (ofMember inner revise)

private theorem respectful_within {revise : Revision} (respectful : Respectful revise)
    (place : Option Nat)
    (inner : String) : Respectful (within place inner revise) := by
  cases place with
  | none => exact respectful_member respectful inner
  | some place => exact respectful_element (respectful_member respectful inner) place

private theorem respectful_revision (address : Address) (value : Json) :
    Respectful (address.revision value) := by
  cases address with
  | key name => exact respectful_storing value
  | member name inner => exact respectful_within (respectful_storing value) none inner
  | append name => exact respectful_adding value
  | elementMember name place inner =>
    exact respectful_within (respectful_storing value) (some place) inner
  | elementAppend name place inner =>
    exact respectful_within (respectful_adding value) (some place) inner

/-- A write that is not to all that is under a key is to one member of one place. -/
theorem revision_within {address : Address} (notBare : ¬ address.IsBare) (value : Json) :
    ∃ inner revise, address.inner? = some inner ∧
      address.revision value = within address.place? inner revise := by
  cases address with
  | key name => exact absurd trivial notBare
  | append name => exact absurd trivial notBare
  | member name inner => exact ⟨inner, storing value, rfl, rfl⟩
  | elementMember name place inner => exact ⟨inner, storing value, rfl, rfl⟩
  | elementAppend name place inner => exact ⟨inner, adding value, rfl, rfl⟩

/-- Revisions of members can be exchanged unless both are of one member of one place. -/
theorem exchangeable_within {place place' : Option Nat} {inner inner' : String}
    (apart : ¬ (place = place' ∧ inner = inner')) (first second : Revision) :
    Exchangeable (within place inner first) (within place' inner' second) := by
  cases place with
  | none =>
    cases place' with
    | none => exact exchangeable_member (fun equal => apart ⟨rfl, equal⟩) first second
    | some place' => exact exchangeable_member_element inner place' first _
  | some place =>
    cases place' with
    | none => exact (exchangeable_member_element inner' place second _).symm
    | some place' =>
      by_cases same : place = place'
      · subst same
        have apartInside : inner ≠ inner' := fun equal => apart ⟨rfl, equal⟩
        exact (exchangeable_member apartInside first second).ofElement place
          (fun _ _ => startingFrom_member) (fun _ _ => startingFrom_member)
      · exact exchangeable_element_of_ne same _ _

/-- Writes under one key that do not meet can be exchanged. -/
theorem exchangeable_revision {a b : Address} (sameName : a.name = b.name) (apart : ¬ Dependent a b)
    (v w : Json) : Exchangeable (a.revision v) (b.revision w) := by
  have notBare : ¬ a.IsBare := fun bare => apart ⟨sameName, .inl bare⟩
  have notBare' : ¬ b.IsBare := fun bare => apart ⟨sameName, .inr (.inl bare)⟩
  obtain ⟨inner, first, hasInner, revision⟩ := revision_within notBare v
  obtain ⟨inner', second, hasInner', revision'⟩ := revision_within notBare' w
  rw [revision, revision']
  refine exchangeable_within (fun ⟨places, inners⟩ => apart ?_) first second
  exact ⟨sameName, .inr (.inr ⟨places, by rw [hasInner, hasInner', inners]⟩)⟩

end Address

namespace Target

/-- The parameters after writes one after another, unless one of them failed. -/
def writeAll (params : List (String × Json)) (writes : List Assignment) :
    Option (List (String × Json)) :=
  writes.foldlM (fun params w => (w.target.write w.value params).result?) params

/-- The step of a write, said by what it makes of what is under its key. -/
def revise (params : List (String × Json)) (w : Assignment) : Option (List (String × Json)) :=
  under w.target.address.name (w.target.address.revision w.value) params

private theorem reorderable_revise :
    Reorderable (fun a b : Assignment => Address.Dependent a.target.address b.target.address)
      AlikeFields revise where
  symm _ _ := Eq.symm
  trans _ _ _ := Eq.trans
  respects w _ _ alike :=
    under_respects (Address.respectful_revision w.target.address w.value) _ alike
  exchange a b params apart _ := by
    by_cases same : a.target.address.name = b.target.address.name
    · have exchangeable := Address.exchangeable_revision same apart a.value b.value
      unfold revise
      rw [← same]
      exact under_exchange exchangeable _ params
    · exact under_exchange_of_ne same _ _ params

section Texts

variable {params : List (String × Json)} {revise : Revision} {o : Option Json}

/-- The revision leaves JSON where JSON is. -/
def KeepsTexts (revise : Revision) : Prop :=
  ∀ o v, (∀ w ∈ o, w.Textual) → revise o = some v → v.Textual

theorem textual_getD {fresh : Json} (there : ∀ w ∈ o, w.Textual) (other : fresh.Textual) :
    (o.getD fresh).Textual := by
  cases o with
  | none => exact other
  | some w => exact there w rfl

private theorem textual_items {items : List Json} (there : ∀ w ∈ o, w.Textual)
    (found : (o.getD (.list [])).items? = some items) : ∀ v ∈ items, v.Textual := by
  have list : (o.getD (.list [])).Textual := textual_getD there (textual_list.mpr (by simp))
  rw [eq_list_of_items? found] at list
  exact textual_list.mp list

private theorem textual_fields {fields : List (String × Json)} (there : ∀ w ∈ o, w.Textual)
    (found : (o.getD (.object [])).fields? = some fields) : Textual (.object fields) := by
  have object : (o.getD (.object [])).Textual := textual_getD there (textual_object.mpr (by simp))
  rwa [eq_object_of_fields? found] at object

private theorem textual_get? (textual : Textual (.object params)) (key : String) :
    ∀ w ∈ Keyed.get? params key, w.Textual :=
  fun _ found => textual_object.mp textual _ (Keyed.mem_of_get? found)

private theorem textual_under (keeps : KeepsTexts revise) {key : String}
    (textual : Textual (.object params)) {after : List (String × Json)}
    (revised : under key revise params = some after) :
    Textual (.object after) := by
  obtain ⟨v, done, rfl⟩ := Option.map_eq_some_iff.mp revised
  refine textual_object.mpr fun entry there => ?_
  rcases Keyed.eq_or_mem_of_mem_put there with rfl | before
  · exact keeps _ v (textual_get? textual key) done
  · exact textual_object.mp textual entry before

private theorem textual_extended (place : Nat) {items : List Json} (textual : ∀ v ∈ items, v.Textual) :
    ∀ v ∈ extended place items, v.Textual := by
  intro v there
  rcases List.mem_append.mp there with inside | added
  · exact textual v inside
  · rw [List.eq_of_mem_replicate added]
    exact textual_object.mpr (by simp)

private theorem textual_startingFrom {v : Json} (textual : v.Textual) : (startingFrom v).Textual := by
  cases v with
  | null => exact textual_object.mpr (by simp)
  | _ => exact textual

private theorem textual_found (place : Nat) {items : List Json} (textual : ∀ v ∈ items, v.Textual) :
    (found place items).Textual := by
  rw [found_eq, List.getD_eq_getElem?_getD]
  refine textual_startingFrom (textual_getD (fun v there => ?_) (textual_object.mpr (by simp)))
  exact textual v (List.mem_of_getElem? there)

private theorem keepsTexts_storing {value : Json} (textual : value.Textual) :
    KeepsTexts (storing value) := by
  intro o v _ stored
  cases stored
  exact textual

private theorem keepsTexts_adding {value : Json} (textual : value.Textual) :
    KeepsTexts (adding value) := by
  intro o v there added
  obtain ⟨items, found, rfl⟩ := Option.map_eq_some_iff.mp added
  refine textual_list.mpr fun w member => ?_
  rcases List.mem_append.mp member with before | last
  · exact textual_items there found w before
  · rw [List.mem_singleton.mp last]
    exact textual

theorem KeepsTexts.ofMember (keeps : KeepsTexts revise) (key : String) :
    KeepsTexts (ofMember key revise) := by
  intro o v there revised
  obtain ⟨after, done, rfl⟩ := Option.map_eq_some_iff.mp revised
  obtain ⟨fields, found, revisedFields⟩ := Option.bind_eq_some_iff.mp done
  exact textual_under keeps (textual_fields there found) revisedFields

theorem KeepsTexts.ofElement (keeps : KeepsTexts revise) (place : Nat) :
    KeepsTexts (ofElement place revise) := by
  intro o v there revised
  obtain ⟨items, listed, done⟩ := Option.bind_eq_some_iff.mp revised
  obtain ⟨w, revisedElement, rfl⟩ := Option.map_eq_some_iff.mp done
  have textual := textual_items there listed
  refine textual_list.mpr fun u member => ?_
  rcases List.mem_or_eq_of_mem_set member with before | new
  · exact textual_extended place textual u before
  · rw [new]
    refine keeps _ w (fun x h => ?_) revisedElement
    cases h
    exact textual_found place textual

private theorem keepsTexts_revision (address : Address) {value : Json} (textual : value.Textual) :
    KeepsTexts (address.revision value) := by
  cases address with
  | key name => exact keepsTexts_storing textual
  | member name inner => exact (keepsTexts_storing textual).ofMember inner
  | append name => exact keepsTexts_adding textual
  | elementMember name place inner => exact ((keepsTexts_storing textual).ofMember inner).ofElement place
  | elementAppend name place inner => exact ((keepsTexts_adding textual).ofMember inner).ofElement place

end Texts

section Results

variable {params : List (String × Json)} (value : Json)

private theorem result?_underKey (key : String) (fresh : Json) (edit : Edit Id Empty)
    (fields : List (String × Json)) :
    Edited.result? (Id.run (underKey key fresh edit fields)) =
      under key (fun there => Edited.result? (Id.run (edit (there.getD fresh)))) fields :=
  Edited.result?_map _ _

private theorem result?_putMember (key : String) (v : Json) (textual : v.Textual) :
    Edited.result? (Id.run (putMember id key value v)) = ofMember key (storing value) (some v) := by
  cases v with
  | table entries => exact absurd textual (by simp [Textual])
  | _ => rfl

private theorem result?_addElement (v : Json) :
    Edited.result? (Id.run (addElement id value v)) = adding value (some v) := by
  cases v <;> rfl

private theorem result?_listMember (key : String) (v : Json) (textual : v.Textual) :
    Edited.result? (Id.run (listMember id key (addElement id value) v)) =
      ofMember key (adding value) (some v) := by
  cases v with
  | table entries => exact absurd textual (by simp [Textual])
  | object fields =>
    have member := result?_underKey key (.list []) (addElement id value) fields
    simp only [result?_addElement] at member
    exact (Edited.result?_map _ _).trans (congrArg (Option.map object) member)
  | _ => rfl

/-- An edit of an element fails on texts, whose characters cannot be changed, and on everything else
that is no list. -/
theorem result?_atPlace (place : Nat) {edit : Edit Id Empty} {revise : Revision}
    (onTexts : ∀ s, revise (some (.str s)) = none)
    (same : ∀ v : Json, v.Textual → Edited.result? (Id.run (edit v)) = revise (some v)) {v : Json}
    (textual : v.Textual) :
    Edited.result? (Id.run (atPlace id place edit v)) = ofElement place revise (some v) := by
  cases v with
  | table entries => exact absurd textual (by simp [Textual])
  | list items =>
    have element := same _ (textual_found place (textual_list.mp textual))
    have around := Edited.result?_map (fun v => Value.list (placed place items v))
      (Id.run (edit (found place items)))
    exact around.trans (congrArg (Option.map _) element)
  | str s =>
    unfold atPlace
    cases there : s.toList[place]? with
    | none => simp only [id, there]; rfl
    | some c =>
      have character := (same (.str c.toString) trivial).trans (onTexts c.toString)
      have around := Edited.result?_map (fun _ => (.str s : Json)) (Id.run (edit (.str c.toString)))
      simp only [id, there]
      exact around.trans (congrArg (Option.map _) character)
  | _ => rfl

/-- A write does what its revision does to what is under its key. -/
theorem result?_write (target : Target) (textual : Textual (.object params)) :
    (target.write value params).result? =
      under target.address.name (target.address.revision value) params := by
  obtain ⟨expression, address⟩ := target
  have object : Textual (.object []) := textual_object.mpr (by simp)
  have list : Textual (.list []) := textual_list.mpr (by simp)
  have current : ∀ (key : String) {fresh : Json}, fresh.Textual →
      ((Keyed.get? params key).getD fresh).Textual :=
    fun key {_} other => textual_getD (textual_get? textual key) other
  cases address with
  | key name => rfl
  | member name inner =>
    have there := result?_putMember value inner _ (current name object)
    exact (result?_underKey name _ _ params).trans (congrArg (Option.map _) there)
  | append name =>
    have there := result?_addElement value ((Keyed.get? params name).getD (.list []))
    exact (result?_underKey name _ _ params).trans (congrArg (Option.map _) there)
  | elementMember name place inner =>
    have there :=
      result?_atPlace place (fun _ => rfl) (result?_putMember value inner) (current name list)
    exact (result?_underKey name _ _ params).trans (congrArg (Option.map _) there)
  | elementAppend name place inner =>
    have there :=
      result?_atPlace place (fun _ => rfl) (result?_listMember value inner) (current name list)
    exact (result?_underKey name _ _ params).trans (congrArg (Option.map _) there)

end Results

private theorem writeAll_eq {params : List (String × Json)} (textual : Textual (.object params))
    (writes : List Assignment) : writeAll params writes = writes.foldlM revise params := by
  unfold writeAll
  induction writes generalizing params with
  | nil => rfl
  | cons w rest ih =>
    have first : (w.target.write w.value params).result? = revise params w :=
      result?_write w.value w.target textual
    rw [List.foldlM_cons, List.foldlM_cons, first]
    cases revised : revise params w with
    | none => rfl
    | some after =>
      have keeps := keepsTexts_revision w.target.address w.textual
      exact ih (textual_under keeps textual revised)

/-- **The order of writes counts only where they meet.** Writes in another order, in which of two
writes that meet the same one comes first, fail in whatever parameters the writes fail in, and
otherwise leave parameters that differ in the order of members only. -/
theorem writeAll_reordered {params : List (String × Json)} (textual : Textual (.object params))
    {writes writes' : List Assignment}
    (reorders : Reorders (fun a b => Address.Dependent a.target.address b.target.address)
      writes writes') :
    Option.Rel AlikeFields (writeAll params writes) (writeAll params writes') := by
  rw [writeAll_eq textual, writeAll_eq textual]
  exact reorderable_revise.run_reorders reorders rfl

/-- A write of the name of one of several people. -/
def naming (place : Nat) (name : String) : Assignment where
  target := ⟨s!"people[{place}].name", .elementMember "people" place "name"⟩
  value := .str name
  textual := trivial

/-- The first of two people can be named last, but the names of the second come in their order. -/
theorem writeAll_reordered_people :
    Textual (.object []) ∧
      Reorders (fun a b : Assignment => Address.Dependent a.target.address b.target.address)
        [naming 0 "x", naming 1 "y", naming 1 "z"] [naming 1 "y", naming 1 "z", naming 0 "x"] ∧
      Option.Rel AlikeFields (writeAll [] [naming 0 "x", naming 1 "y", naming 1 "z"])
        (writeAll [] [naming 1 "y", naming 1 "z", naming 0 "x"]) ∧
      writeAll [] [naming 1 "y", naming 1 "z", naming 0 "x"] =
        some [("people", .list [.object [("name", .str "x")], .object [("name", .str "z")]])] := by
  have textual : Textual (.object []) := textual_object.mpr (by simp)
  have reorders : Reorders (fun a b : Assignment => Address.Dependent a.target.address b.target.address)
      [naming 0 "x", naming 1 "y", naming 1 "z"] [naming 1 "y", naming 1 "z", naming 0 "x"] := by
    refine ⟨[(naming 1 "y", 1), (naming 1 "z", 2), (naming 0 "x", 0)], ?_, rfl, ?_⟩
    · exact (List.perm_append_comm :
        ([(naming 1 "y", 1), (naming 1 "z", 2)] ++ [(naming 0 "x", 0)]).Perm _)
    · simp [Address.Dependent, Address.IsBare, Address.place?, naming]
  exact ⟨textual, reorders, writeAll_reordered textual reorders, by decide +kernel⟩

end Target

end ResourceGraph
