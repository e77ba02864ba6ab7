import ResourceGraph.Proofs.DataLaw
import ResourceGraph.Proofs.Shuffling

/-!
Building one resource for each row. A resource that is built is a new one; those that are there stay
as they are. So the resource at a place of the list has the identifiers and the data of the row at
that place, and none of its identifiers is null.
-/

namespace ResourceGraph

open ResourceGraph.Graph Outcome

namespace Keyed

variable {α : Type}

private theorem keys_of_get? {m : Keyed α} {key : String} {value : α} (found : get? m key = some value) :
    key ∈ keys m := by
  by_contra absent
  rw [get?_eq_none_iff.mpr absent] at found
  cases found

theorem get?_erase (m : Keyed α) {key name : String} (other : name ≠ key) :
    get? (erase m key) name = get? m name := by
  induction m with
  | nil => rfl
  | cons entry rest ih =>
    obtain ⟨k, a⟩ := entry
    rw [erase] at ih ⊢
    by_cases same : k = key
    · subst same
      simp [get?, ih, Ne.symm other]
    · by_cases here : k = name
      · subst here
        simp [get?, other]
      · simp [get?, same, here, ih]

theorem mem_keys_erase {m : Keyed α} {key other : String} :
    other ∈ keys (erase m key) ↔ other ∈ keys m ∧ other ≠ key := by
  simp [keys, erase]

theorem get?_erase_self (m : Keyed α) (key : String) : get? (erase m key) key = none :=
  get?_eq_none_iff.mpr fun known => (mem_keys_erase.mp known).2 rfl

end Keyed

/-- Everything that is given becomes an identifier, and none of it is null. -/
theorem ResourceType.given_of_identify {t : ResourceType} {given identifiers : Keyed Datum}
    (identified : t.identify given = .ok identifiers) {name : String} {v : Datum}
    (found : Keyed.get? given name = some v) : v ≠ .null ∧ Keyed.get? identifiers name = some v := by
  obtain ⟨known, valued⟩ := Act.of_identify identified
  have declared := known name (Keyed.keys_of_get? found)
  rw [← Act.keys_of_identify identified] at declared
  cases there : Keyed.get? identifiers name with
  | none => exact absurd declared (Keyed.get?_eq_none_iff.mp there)
  | some w =>
    obtain ⟨other, _, made⟩ := mem_of_mapM valued (Keyed.mem_of_get? there)
    obtain ⟨rfl, filled, given⟩ := Act.of_valueFor made
    cases found.symm.trans given
    exact ⟨filled, rfl⟩

namespace Act

variable {b : Builder} {context : Context} {g h : Graph}

/-! ## One resource -/

/-- The resource has the identifiers and the data of a row. -/
def OfRow (values : Keyed Datum) (r : Resource) : Prop :=
  (∀ name v, name ≠ Builder.dataKey → Keyed.get? values name = some v →
    v ≠ .null ∧ Keyed.get? r.identifiers name = some v) ∧
  r.data = Keyed.get? values Builder.dataKey

theorem lift_gives {α : Type} {result : Except Failure α} {a : α}
    (ran : runIn (lift result) g = (.ok a, h)) : result = .ok a ∧ g = h := by
  rw [runIn_liftResult] at ran
  exact Prod.mk.inj ran

theorem modify_last {α : Type} (xs : Array α) (last : α) (f : α → α) :
    (xs.push last).modify xs.size f = xs.push (f last) := by
  apply Array.ext_getElem?
  intro i
  rw [Array.getElem?_modify, Array.getElem?_push, Array.getElem?_push]
  by_cases same : xs.size = i
  · simp [same]
  · simp [same, Ne.symm same]

private theorem placed_named {t : ResourceType} {given placed : Keyed Datum}
    (ok : t.placed [] given = .ok placed) :
    placed = given := by
  unfold ResourceType.placed at ok
  split at ok
  · cases ok
  · cases ok
    rfl

/-- What is made is one more resource: of the type, with the identifiers that this makes of what is
given, with the client and the data, and without references. -/
theorem construct_gives {ref : TypeRef} {given : Keyed Datum} {client : Option ClientId}
    {data : Option Datum} {id : ResourceId}
    (ran : runIn (construct ref [] given client data) g = (.ok id, h)) :
    ∃ r : Resource, ((g.types[ref.index]?).getD { name := ref.name }).identify given =
      .ok r.identifiers ∧
      r.type = ref ∧ r.references = [] ∧ (∀ c, client = some c → r.client = c) ∧ r.data = data ∧
      h = { g with resources := g.resources.push r } ∧ id = g.resources.size := by
  unfold construct makeResource at ran
  rw [runIn_bind_ok (runIn_typeOf _ _)] at ran
  obtain ⟨placed, mid, placing, making⟩ := bind_gives.mp ran
  obtain ⟨named, rfl⟩ := lift_gives placing
  obtain rfl := placed_named named
  rw [runIn_bind_ok (runIn_typeOf _ _)] at making
  obtain ⟨identifiers, mid, identifying, rest⟩ := bind_gives.mp making
  obtain ⟨identified, rfl⟩ := lift_gives identifying
  obtain ⟨owner, mid, serving, adding⟩ := bind_gives.mp rest
  obtain ⟨served, rfl⟩ := lift_gives serving
  rw [runIn_add] at adding
  cases adding
  refine ⟨_, identified, rfl, rfl, ?_, rfl, rfl, rfl⟩
  rintro c rfl
  exact (Except.ok.inj served).symm

/-- The resource was made by the builder: of its type, for the client of the caller. -/
structure MadeBy (b : Builder) (context : Context) (g : Graph) (r : Resource) : Prop where
  new : r.New g.types
  type : r.type = b.target
  client : ∃ caller s, context.caller = some caller ∧ g.resources[caller]? = some s ∧ r.client = s.client

/-- One resource is added, and it has what the row says. -/
theorem buildOne_gives {values : Keyed Datum} {id : ResourceId}
    (ran : runIn (buildOne b context values) g = (.ok id, h)) :
    ∃ r, OfRow values r ∧ MadeBy b context g r ∧ h = { g with resources := g.resources.push r } ∧
      id = g.resources.size := by
  unfold buildOne at ran
  obtain ⟨caller, mid, asked, ran⟩ := bind_gives.mp ran
  have looked := callerOf_looks context g
  rw [asked] at looked
  obtain rfl : g = mid := looked
  obtain ⟨made, mid, constructed, ran⟩ := bind_gives.mp ran
  obtain ⟨r, identified, type, bare, served, empty, rfl, rfl⟩ := construct_gives constructed
  have named : ∀ name v, name ≠ Builder.dataKey → Keyed.get? values name = some v →
      v ≠ .null ∧ Keyed.get? r.identifiers name = some v :=
    fun name v other found =>
      ResourceType.given_of_identify identified ((Keyed.get?_erase values other).trans found)
  have client : ∃ id s, context.caller = some id ∧ g.resources[id]? = some s ∧ r.client = s.client := by
    unfold callerOf at asked
    split at asked
    · next id same => exact ⟨id, caller, same, (resource_gives asked).1, served _ rfl⟩
    · cases asked
  rw [← type] at identified
  have new : r.New g.types := ⟨⟨_, identified⟩, bare⟩
  cases data : Keyed.get? values Builder.dataKey with
  | none =>
    rw [data] at ran
    cases ran
    exact ⟨r, ⟨named, empty.trans data.symm⟩, ⟨new, type, client⟩, rfl, rfl⟩
  | some v =>
    rw [data] at ran
    cases ran
    refine ⟨{ r with data := some v }, ⟨named, data.symm⟩,
      ⟨⟨new.identified, bare⟩, type, client⟩, ?_, rfl⟩
    exact congrArg (fun resources => { g with resources }) (modify_last _ _ _)

/-! ## One resource for each row -/

/-- For every row there is a resource that has what it says, at the same place of the list. -/
theorem buildRows_gives {rows : List (Keyed Datum)} {members : List ResourceId}
    (ran : runIn (rows.mapM (buildOne b context)) g = (.ok members, h)) :
    members.length = rows.length ∧
      (∀ (id : ResourceId) r, g.resources[id]? = some r → h.resources[id]? = some r) ∧
      ∀ (place : Nat) id, members[place]? = some id → ∃ values r, rows[place]? = some values ∧
        h.resources[id]? = some r ∧ OfRow values r := by
  induction rows generalizing g members with
  | nil =>
    rw [List.mapM_nil] at ran
    cases ran
    exact ⟨rfl, fun _ _ there => there, by simp⟩
  | cons values rest ih =>
    rw [List.mapM_cons] at ran
    obtain ⟨first, mid, built, ran⟩ := bind_gives.mp ran
    obtain ⟨others, last, left, ran⟩ := bind_gives.mp ran
    cases ran
    obtain ⟨r, fits, _, rfl, rfl⟩ := buildOne_gives built
    obtain ⟨long, kept, each⟩ := ih left
    refine ⟨by simp [long], fun id s there => kept id s ?_, fun place id found => ?_⟩
    · have inside := (Array.getElem?_eq_some_iff.mp there).1
      rw [Array.getElem?_push, if_neg (by omega), there]
    · cases place with
      | zero =>
        cases found
        exact ⟨values, r, rfl, kept _ r Array.getElem?_push_size, fits⟩
      | succ place => exact each place id found

end Act

/-! ## Rows -/

namespace Builder

variable {opened : Datum → Datum} {plural : List String} {values : Keyed Datum} {place : Nat}

private theorem foldl_max_mem {lengths : List Nat} (full : 0 < lengths.foldl max 0) :
    lengths.foldl max 0 ∈ lengths ∧ ∀ n ∈ lengths, n ≤ lengths.foldl max 0 := by
  rw [List.foldl_max, Nat.zero_max] at full ⊢
  cases most : lengths.max? with
  | none => simp [most] at full
  | some n => exact List.max?_eq_some_iff.mp most

/-- A row is of a place; there are as many rows as the longest list has elements, and no list is
empty. -/
theorem of_rows {found : Keyed Datum} (there : (rows opened plural values)[place]? = some found) :
    found = row opened plural values place ∧
      (∀ target ∈ plural, (elementsFor opened values target).length ≤
        (rows opened plural values).length) ∧
      ∃ target ∈ plural, (elementsFor opened values target).length =
        (rows opened plural values).length := by
  unfold rows at there ⊢
  dsimp only at there ⊢
  split at there
  · cases there
  · next full =>
    rw [if_neg full]
    have inside := (List.getElem?_eq_some_iff.mp there).1
    rw [List.length_map, List.length_range] at inside ⊢
    obtain ⟨reached, bounds⟩ := foldl_max_mem (Nat.zero_lt_of_lt inside)
    rw [List.getElem?_map, List.getElem?_range inside] at there
    cases there
    refine ⟨rfl, fun target member => bounds _ (List.mem_map_of_mem member), ?_⟩
    obtain ⟨target, member, same⟩ := List.mem_map.mp reached
    exact ⟨target, member, same⟩

/-- What a row has under a target: the element at its place if the target is that of a list, and all
of it otherwise. -/
theorem get?_row_eq (values : Keyed Datum) (target : String) :
    Keyed.get? (row opened plural values place) target = (Keyed.get? values target).map fun v =>
      if target ∈ plural then (elements opened v)[place]?.getD .null else v := by
  rw [← Keyed.get?_map values fun target v =>
    if target ∈ plural then (elements opened v)[place]?.getD .null else v, row]
  congr 1
  refine List.map_congr_left fun entry _ => ?_
  by_cases listed : entry.1 ∈ plural <;> simp [listed]

/-- What a row has under the target of a list is the element at its place. -/
theorem get?_row {target : String} {v : Datum} (member : target ∈ plural)
    (found : Keyed.get? values target = some v) :
    Keyed.get? (row opened plural values place) target =
      some ((elements opened v)[place]?.getD .null) := by
  rw [get?_row_eq, found, Option.map_some, if_pos member]

end Builder

end ResourceGraph
