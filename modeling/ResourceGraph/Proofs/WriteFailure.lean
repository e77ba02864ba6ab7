import ResourceGraph.Proofs.StoreGrowth
import ResourceGraph.Proofs.WriteOrder

/-!
A write that fails. On the way to its address a write makes lists and objects where nothing is,
extends a list up to the element and puts an object in the place of null, all before the step that
may stop it. But no step stops in what was just made: what stops a write is something that was
there. So a write that stops leaves the parameters, and all that is shared, as they were. The
argument is the same for plain trees and for containers that are shared; it rests on a few rules
about steps that stop.
-/

namespace ResourceGraph

namespace Value

variable {ρ : Type} {v w : Value ρ}

/-- A value is, or is inside, another. The keys of a table are not looked into. -/
inductive Within (w : Value ρ) : Value ρ → Prop
  | here : Within w w
  | element {items : List (Value ρ)} {v : Value ρ} (member : v ∈ items) (inside : Within w v) :
    Within w (.list items)
  | member {fields : List (String × Value ρ)} {entry : String × Value ρ} (member : entry ∈ fields)
    (inside : Within w entry.2) : Within w (.object fields)
  | entry {entries : List (Value ρ × Value ρ)} {entry : Value ρ × Value ρ} (member : entry ∈ entries)
    (inside : Within w entry.2) : Within w (.table entries)

/-- No two entries are found by a test of their keys. -/
def FoundOnce (test : Value ρ → Bool) (entries : List (Value ρ × Value ρ)) : Prop :=
  entries.Pairwise fun a b => ¬ (test a.1 = true ∧ test b.1 = true)

/-- No text and no number is the key of two entries of one table. -/
def Tidy (v : Value ρ) : Prop :=
  ∀ entries, Within (.table entries) v → (∀ key, FoundOnce (isText key) entries) ∧
    ∀ place : Nat, FoundOnce (fun k => sameScalar k (.int place)) entries

/-- No container is directly inside the value: those that it holds are kept elsewhere. -/
def Flat : Value ρ → Prop
  | .list items => ∀ v ∈ items, v.isContainer = false
  | .object fields => ∀ entry ∈ fields, entry.2.isContainer = false
  | .table entries => ∀ entry ∈ entries, entry.2.isContainer = false
  | _ => True

namespace Tidy

private theorem element {items : List (Value ρ)} (tidy : Tidy (.list items))
    (member : v ∈ items) : v.Tidy :=
  fun entries inside => tidy entries (.element member inside)

private theorem member {fields : List (String × Value ρ)} (tidy : Tidy (.object fields)) {key : String}
    (found : Keyed.get? fields key = some v) : v.Tidy :=
  fun entries inside => tidy entries (.member (Keyed.mem_of_get? found) inside)

private theorem entry {entries : List (Value ρ × Value ρ)} {key : Value ρ} (tidy : Tidy (.table entries))
    (member : (key, v) ∈ entries) : v.Tidy :=
  fun entries inside => tidy entries (.entry member inside)

private theorem str (s : String) : Tidy (.str s : Value ρ) := by
  rintro entries ⟨⟩

end Tidy

end Value

open Edit Value

variable {ρ : Type} {m : Type → Type} [Monad m]

/-- Rules about steps that may stop: `kept a x` says that `x` leaves `a` as it is if it stops, and
`sure x` that it does not stop. Whoever reaches inside a value keeps it where the step inside keeps
what is there, and does nothing more for a container that is not shared. -/
structure Careful (reach : Edit m ρ → Edit m ρ) (kept : (α : Type) → α → m (Edited α) → Prop)
    (sure : (α : Type) → m (Edited α) → Prop) : Prop where
  stop : ∀ (v : Value ρ) fault, kept _ v (Edit.stop v fault)
  done : ∀ {α : Type} (a : α), sure _ (pure ⟨a, none⟩)
  ofSure : ∀ {α : Type} (a : α) {x : m (Edited α)}, sure _ x → kept _ a x
  mapSure : ∀ {α β : Type} (f : α → β) {x : m (Edited α)}, sure _ x →
    sure _ (do let edited ← x; return edited.map f)
  map : ∀ {α β : Type} (f : α → β) {a : α} {x : m (Edited α)}, kept _ a x →
    kept _ (f a) (do let edited ← x; return edited.map f)
  reaches : ∀ {edit : Edit m ρ} {v : Value ρ}, (∀ w : Value ρ, w.Tidy → kept _ w (edit w)) → v.Tidy →
    kept _ v (reach edit v)
  plain : ∀ (edit : Edit m ρ) {v : Value ρ}, v.isContainer = true → reach edit v = edit v

theorem Keyed.put_get? {α : Type} {fields : Keyed α} {key : String} {value : α}
    (found : get? fields key = some value) : put fields key value = fields := by
  induction fields with
  | nil => cases found
  | cons entry rest ih =>
    obtain ⟨k, a⟩ := entry
    unfold get? at found
    split at found
    · next same =>
      cases found
      rw [put, if_pos same]
    · next other => rw [put, if_neg other, ih found]

/-- Storing again what a test of keys finds changes nothing, where it is found once. -/
theorem Value.map_found {test : Value ρ → Bool} {entries : List (Value ρ × Value ρ)} {k v : Value ρ}
    (once : FoundOnce test entries) (found : entries.find? (fun entry => test entry.1) = some (k, v)) :
    entries.map (fun entry => if test entry.1 then (entry.1, v) else entry) = entries := by
  have symmetric : Std.Symm fun a b : Value ρ × Value ρ => ¬ (test a.1 = true ∧ test b.1 = true) :=
    ⟨fun _ _ apart both => apart both.symm⟩
  have holds : test k = true := by simpa using List.find?_some found
  refine (List.map_congr_left fun entry member => ?_).trans entries.map_id
  split
  · next also =>
    have same : entry = (k, v) := by
      by_contra other
      exact List.Pairwise.forall once member (List.mem_of_find?_eq_some found) other ⟨also, holds⟩
    rw [same]
    rfl
  · rfl

theorem Value.withMember_member? {fields : List (Value ρ × Value ρ)} {key : String} {v : Value ρ}
    (once : FoundOnce (isText key) fields) (found : (Value.table fields).member? key = some v) :
    (Value.table fields).withMember key v = .table fields := by
  obtain ⟨⟨k, w⟩, there, rfl⟩ := Option.map_eq_some_iff.mp found
  have some : (fields.any fun entry => isText key entry.1) = true :=
    List.any_eq_true.mpr ⟨_, List.mem_of_find?_eq_some there, by simpa using List.find?_some there⟩
  dsimp only [withMember]
  rw [if_pos some, map_found once there]

theorem Edit.startingFrom_of_ne {v : Value ρ} (other : v ≠ .null) : startingFrom v = v := by
  cases v with
  | null => exact absurd rfl other
  | _ => rfl

/-- The element that is edited is one that was there, and putting it back changes nothing; or it is
an empty object that was just made. -/
theorem Edit.element_cases (place : Nat) (items : List (Value ρ)) :
    (∃ w ∈ items, startingFrom ((extended place items).getD place .null) = w ∧
      (extended place items).set place w = items) ∨
      startingFrom ((extended place items).getD place .null) = .object [] := by
  by_cases inside : place < items.length
  · have same : extended place items = items := by
      rw [extended, Nat.sub_eq_zero_of_le inside, List.replicate_zero, List.append_nil]
    rw [same, List.getD_eq_getElem _ _ inside]
    by_cases null : items[place] = .null
    · exact .inr (by rw [null]; rfl)
    · exact .inl ⟨items[place], List.getElem_mem inside, startingFrom_of_ne null,
        List.set_getElem_self inside⟩
  · refine .inr ?_
    have fresh : (extended place items)[place]? = some (.object []) := by
      rw [extended, List.getElem?_append_right (by omega), List.getElem?_replicate, if_pos (by omega)]
    rw [List.getD_eq_getElem?_getD, fresh]
    rfl

namespace Careful

variable {reach : Edit m ρ → Edit m ρ} {kept : (α : Type) → α → m (Edited α) → Prop}
  {sure : (α : Type) → m (Edited α) → Prop} (careful : Careful reach kept sure)
  {key : String} {value v : Value ρ} {edit : Edit m ρ}
include careful

/-! ## Steps inside one value -/

private theorem putMember (tidy : v.Tidy) : kept _ v (putMember reach key value v) := by
  refine careful.reaches (fun w _ => ?_) tidy
  cases w with
  | object fields => exact careful.ofSure _ (careful.done _)
  | table entries => exact careful.ofSure _ (careful.done _)
  | _ => exact careful.stop _ _

private theorem putMember_sure : sure _ (Edit.putMember reach key value (.object [])) := by
  rw [Edit.putMember, careful.plain _ rfl]
  exact careful.done _

private theorem addElement (tidy : v.Tidy) : kept _ v (addElement reach value v) := by
  refine careful.reaches (fun w _ => ?_) tidy
  cases w with
  | list items => exact careful.ofSure _ (careful.done _)
  | _ => exact careful.stop _ _

private theorem addElement_sure : sure _ (Edit.addElement reach value (.list [])) := by
  rw [Edit.addElement, careful.plain _ rfl]
  exact careful.done _

/-! ## Steps around another -/

/-- What is under the key is kept by the step inside; and where nothing is, the step does not stop. -/
theorem underKey {fields : List (String × Value ρ)} {fresh : Value ρ}
    (inside : ∀ w, Keyed.get? fields key = some w → kept _ w (edit w)) (made : sure _ (edit fresh)) :
    kept _ fields (underKey key fresh edit fields) := by
  unfold Edit.underKey
  cases there : Keyed.get? fields key with
  -- What is stored under a new key is `fresh` after the step, which did not stop.
  | none => exact careful.ofSure _ (careful.mapSure _ made)
  | some w =>
    have stored := careful.map (Keyed.put fields key) (inside w there)
    rwa [Keyed.put_get? there] at stored

private theorem listMember (inside : ∀ w : Value ρ, w.Tidy → kept _ w (edit w))
    (made : sure _ (edit (.list [])))
    (tidy : v.Tidy) : kept _ v (listMember reach key edit v) := by
  refine careful.reaches (fun w tidy => ?_) tidy
  cases w with
  | object fields =>
    exact careful.map Value.object (careful.underKey (fun w found => inside w (tidy.member found)) made)
  | table entries =>
    cases there : (Value.table entries).member? key with
    | none =>
      dsimp only
      rw [there]
      exact careful.ofSure _ (careful.mapSure _ made)
    | some w =>
      obtain ⟨⟨k, _⟩, found, rfl⟩ := Option.map_eq_some_iff.mp there
      have stored := careful.map ((Value.table entries).withMember key)
        (inside _ (tidy.entry (List.mem_of_find?_eq_some found)))
      rw [withMember_member? ((tidy entries .here).1 key) there] at stored
      dsimp only
      rw [there]
      exact stored
  | _ => exact careful.stop _ _

private theorem listMember_sure (made : sure _ (edit (.list []))) :
    sure _ (Edit.listMember reach key edit (.object [])) := by
  rw [Edit.listMember, careful.plain _ rfl]
  exact careful.mapSure _ (careful.mapSure _ made)

/-- The element that is edited was there, or was just made and does not stop the step. -/
theorem atPlace {place : Nat} (inside : ∀ w : Value ρ, w.Tidy → kept _ w (edit w))
    (made : sure _ (edit (.object []))) (tidy : v.Tidy) : kept _ v (atPlace reach place edit v) := by
  refine careful.reaches (fun w tidy => ?_) tidy
  cases w with
  | list items =>
    dsimp only
    rcases element_cases place items with ⟨w, member, element, again⟩ | fresh
    · have stored := careful.map (fun v => Value.list ((extended place items).set place v))
        (inside w (tidy.element member))
      rw [again] at stored
      rwa [element]
    · rw [fresh]
      exact careful.ofSure _ (careful.mapSure _ made)
  | table entries =>
    dsimp only
    split
    · exact careful.stop _ _
    · split
      · exact careful.stop _ _
      · next k w found =>
        by_cases null : w = .null
        · rw [null]
          exact careful.ofSure _ (careful.mapSure _ made)
        · have stored := careful.map (fun v => Value.table (putAt place v entries))
            (inside w (tidy.entry (List.mem_of_find?_eq_some found)))
          rw [putAt, map_found ((tidy entries .here).2 place) found] at stored
          rwa [startingFrom_of_ne null]
  | str s =>
    dsimp only
    split
    · exact careful.stop _ _
    · exact careful.map (fun _ => Value.str s) (inside _ (.str _))
  | _ => exact careful.stop _ _

private theorem atPlace_sure {place : Nat} (made : sure _ (edit (.object []))) :
    sure _ (Edit.atPlace reach place edit (.list [])) := by
  rw [Edit.atPlace, careful.plain _ rfl]
  rcases element_cases place ([] : List (Value ρ)) with ⟨w, member, -⟩ | fresh
  · cases member
  · dsimp only
    rw [fresh]
    exact careful.mapSure _ made

/-! ## The whole write -/

/-- The parameters are kept by a write that stops, whatever it is that stops it. -/
theorem writeWith {params : List (String × Value ρ)} (tidy : Tidy (.object params)) (address : Address) :
    kept _ params (Target.writeWith reach address value params) := by
  cases address with
  | key name => exact careful.ofSure _ (careful.done _)
  | member name inner =>
    exact careful.underKey (fun w found => careful.putMember (tidy.member found)) careful.putMember_sure
  | append name =>
    exact careful.underKey (fun w found => careful.addElement (tidy.member found))
      careful.addElement_sure
  | elementMember name place inner =>
    exact careful.underKey
      (fun w found =>
        careful.atPlace (fun _ => careful.putMember) careful.putMember_sure (tidy.member found))
      (careful.atPlace_sure careful.putMember_sure)
  | elementAppend name place inner =>
    have made : sure _ (Edit.listMember reach inner (Edit.addElement reach value) (.object [])) :=
      careful.listMember_sure careful.addElement_sure
    exact careful.underKey
      (fun w found => careful.atPlace (fun _ => careful.listMember (fun _ => careful.addElement)
        careful.addElement_sure) made (tidy.member found))
      (careful.atPlace_sure made)

end Careful

/-- In plain trees a step that stops leaves what it found. -/
theorem careful_id : Careful (m := Id) (ρ := ρ) id (fun _ a x => x.run.fault ≠ none → x.run.after = a)
    fun _ x => x.run.fault = none where
  stop _ _ _ := rfl
  done _ := rfl
  ofSure _ _ made stopped := absurd made stopped
  mapSure _ _ made := made
  map f _ _ kept stopped := congrArg f (kept stopped)
  reaches inside tidy := inside _ tidy
  plain _ _ _ := rfl

namespace Store

/-- What is kept is tidy, and what is inside it has places of its own. -/
def Orderly (s : Store) : Prop :=
  ∀ share content, s.cell? share = some (.data content) → content.Tidy ∧ content.Flat

private theorem shareInside_flat {content : Datum} (flat : content.Flat) :
    shareInside content = pure content := by
  cases content with
  | list items => rw [shareInside, shareItems_shallow flat]; rfl
  | object fields => rw [shareInside, shareFields_shallow flat]; rfl
  | table entries => rw [shareInside, shareEntries_shallow flat]; rfl
  | _ => rfl

private theorem replace_same {s : Store} {share : Share} {content : Datum}
    (there : s.cell? share = some (.data content)) :
    ((replace share content).run s).2 = s := by
  obtain ⟨inside, same⟩ := Array.getElem?_eq_some_iff.mp there
  have cells : s.cells.setIfInBounds share.cell (.data content) = s.cells := by
    rw [← same, Array.setIfInBounds, dif_pos inside, Array.set_getElem_self]
  exact congrArg (fun cells => { s with cells }) cells

private theorem run_reach (edit : Edit (StateM Store) Share) (share : Share) (s : Store) :
    (reach edit (.shared share)).run s =
      match s.cell? share with
      | some (.data content) =>
        let edited := (edit content).run s
        let inside := (shareInside edited.1.after).run edited.2
        (⟨.shared share, edited.1.fault⟩, ((replace share inside.1).run inside.2).2)
      | _ => (edit (.shared share)).run s := by
  have unfolded : (reach edit (.shared share)).run s = (match s.cell? share with
    | some (.data content) => do
      let edited ← edit content
      replace share (← shareInside edited.after)
      return ⟨.shared share, edited.fault⟩
    | _ => edit (.shared share) : StateM Store (Edited Datum)).run s := rfl
  rw [unfolded]
  split <;> rfl

/-- Where containers are shared, a step that stops leaves what it found and all that is shared. -/
theorem careful_reach : Careful reach
    (fun _ a x => ∀ s : Store, s.Orderly → (x.run s).1.fault ≠ none → (x.run s).1.after = a ∧
      (x.run s).2 = s)
    fun _ x => ∀ s : Store, (x.run s).1.fault = none where
  stop _ _ _ _ _ := ⟨rfl, rfl⟩
  done _ _ := rfl
  ofSure _ _ made s _ stopped := absurd (made s) stopped
  mapSure _ _ made := made
  map f _ _ kept s orderly stopped := by
    obtain ⟨after, same⟩ := kept s orderly stopped
    exact ⟨congrArg f after, same⟩
  reaches := by
    intro edit v inside tidy s orderly stopped
    cases v with
    | shared share =>
      rw [run_reach] at stopped ⊢
      split at stopped
      · next content there =>
        obtain ⟨neat, flat⟩ := orderly share content there
        obtain ⟨after, same⟩ := inside content neat s orderly stopped
        refine ⟨rfl, ?_⟩
        dsimp only
        rw [after, shareInside_flat flat, same]
        exact replace_same there
      · exact inside _ tidy s orderly stopped
    | _ => exact inside _ tidy s orderly stopped
  plain edit v container := by
    cases v with
    | shared share => cases container
    | _ => rfl

end Store

/-- JSON is tidy: the keys of its objects are texts, and it has no tables. -/
theorem Value.Textual.tidy {v : Json} (textual : v.Textual) : v.Tidy := by
  intro entries inside
  induction inside with
  | here => exact textual.elim
  | element member _ ih => exact ih (textual_list.mp textual _ member)
  | member member _ ih => exact ih (textual_object.mp textual _ member)
  | entry => exact textual.elim

namespace Target

/-- **A write that fails has changed nothing.** Whatever the parameters hold and wherever it is that
the write stops, they are left as they were; and so is all that they share with others, where
containers are shared. -/
theorem write_stopped (target : Target) :
    (∀ (value : Json) (params : List (String × Json)), Tidy (.object params) →
      (target.write value params).fault ≠ none → (target.write value params).after = params) ∧
      ∀ (s : Store) (value : Datum) (params : List (String × Datum)), s.Orderly → Tidy (.object params) →
        ((Store.write target.address value params).run s).1.fault ≠ none →
          ((Store.write target.address value params).run s).1.after = params ∧
            ((Store.write target.address value params).run s).2 = s :=
  ⟨fun _ _ tidy => careful_id.writeWith tidy target.address,
    fun s _ _ orderly tidy => Store.careful_reach.writeWith tidy target.address s orderly⟩

/-- The names of two people, one of them kept as a text where an object is needed. -/
def namesOfPeople : List (String × Json) := [("people", .list [.null, .str "x"])]

/-- A store with a list of one text. -/
def storeOfOne : Store := { cells := #[.data (.list [.str "x"])] }

/-- A text in a list has no members: neither the list, nor its other element, nor what is shared has
changed. -/
theorem write_stopped_names :
    let target : Target := ⟨"people[1].name", .elementMember "people" 1 "name"⟩
    (target.write (.str "y") namesOfPeople).fault = some .noMembers ∧
      (target.write (.str "y") namesOfPeople).after = namesOfPeople ∧
      ((Store.write (.elementMember "people" 0 "name") (.str "y") [("people", .shared ⟨0⟩)]).run
        storeOfOne).2 =
        storeOfOne := by
  have textual : Textual (.object namesOfPeople) := by
    simp [namesOfPeople, Textual, TextualFields, TextualItems]
  have orderly : storeOfOne.Orderly := by
    intro share content there
    obtain ⟨inside, kept⟩ := Array.getElem?_eq_some_iff.mp there
    have first : share.cell = 0 := Nat.lt_one_iff.mp inside
    simp only [storeOfOne, first] at kept
    cases kept
    refine ⟨?_, by simp [Flat, Value.isContainer]⟩
    rintro entries (_ | ⟨member, within⟩)
    cases List.mem_singleton.mp member
    cases within
  have tidy : Tidy (.object [("people", .shared ⟨0⟩)] : Datum) := by
    rintro entries (_ | _ | ⟨member, within⟩)
    cases List.mem_singleton.mp member
    cases within
  have text := (write_stopped ⟨"people[1].name", .elementMember "people" 1 "name"⟩).1 (.str "y")
    namesOfPeople textual.tidy (Option.some_ne_none WriteFault.noMembers)
  have shared :=
    (write_stopped ⟨"people[0].name", .elementMember "people" 0 "name"⟩).2 storeOfOne (.str "y")
    _ orderly tidy (Option.some_ne_none WriteFault.noMembers)
  exact ⟨rfl, text, shared.2⟩

end Target

end ResourceGraph
