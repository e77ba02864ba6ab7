import ResourceGraph.Proofs.Loading
import ResourceGraph.Proofs.Regions

/-!
What a load can touch. To write into parameters changes only containers that the projected
identifiers reach, and those that were added for the parameters; to call and to look at the response
changes none. So data that shares no container with the projected identifiers keeps its content,
however often it is loaded anew.
-/

namespace ResourceGraph

namespace Store

variable {α β : Type} {s t : Store} {region wider : Share → Prop}

/-! ## Writing inside a region -/

/-- What an edit leaves is held by a region. -/
abbrev Leaves (region : Share → Prop) (e : Edited Datum) : Prop := e.after.Every region

/-- To edit what a region holds stays in it, however much it was widened before. -/
def Confined (region : Share → Prop) (edit : Edit (StateM Store) Share) : Prop :=
  ∀ (s : Store) (wider : Share → Prop) (v : Datum), (∀ share, region share → wider share) →
    s.Region wider → v.Every wider → StaysIn wider Leaves s (edit v)

variable {edit : Edit (StateM Store) Share}

theorem stop_staysIn {v : Datum} (fault : WriteFault) (within : s.Region region)
    (held : v.Every region) :
    StaysIn region Leaves s (Edit.stop v fault : StateM Store (Edited Datum)) :=
  .pure within held

theorem confined_reach (confined : Confined region edit) : Confined region (reach edit) := by
  intro s wider v more within held
  cases v with
  | shared share =>
    refine .get ?_
    split
    · next content found =>
      refine (confined s wider content more within (within.closed share content held found)).bind
        fun edited t further widens left => ?_
      refine (shareInside_staysIn edited.after widens.within left).bind
        fun inside u last again kept => ?_
      refine (replace_staysIn again.within ?_ kept).bind fun _ _ _ done _ => .pure done.within ?_
      · exact again.keeps share (widens.keeps share held)
      · exact done.keeps share (again.keeps share (widens.keeps share held))
    · exact confined s wider (.shared share) more within held
  | _ => exact confined s wider _ more within held

theorem every_put {fields : List (String × Datum)} {key : String} {value : Datum}
    (held : ∀ entry ∈ fields, entry.2.Every region) (given : value.Every region) :
    ∀ entry ∈ Keyed.put fields key value, entry.2.Every region := by
  intro entry member
  rcases Keyed.eq_or_mem_of_mem_put member with rfl | before
  · exact given
  · exact held entry before

theorem every_withMember {v : Datum} {key : String} {value : Datum} (held : v.Every region)
    (given : value.Every region) : (v.withMember key value).Every region := by
  unfold Value.withMember
  split
  · rw [Value.every_object] at held ⊢
    exact every_put held given
  · rw [Value.every_table] at held
    split
    · rw [Value.every_table]
      intro entry member
      obtain ⟨before, inside, rfl⟩ := List.mem_map.mp member
      split
      · exact ⟨(held before inside).1, given⟩
      · exact held before inside
    · rw [Value.every_table]
      intro entry member
      rcases List.mem_append.mp member with before | new
      · exact held entry before
      · obtain rfl := List.mem_singleton.mp new
        exact ⟨trivial, given⟩
  · exact held

theorem every_member? {v found : Datum} {key : String} (held : v.Every region)
    (there : v.member? key = some found) : found.Every region := by
  unfold Value.member? at there
  split at there
  · rw [Value.every_object] at held
    exact held _ (Keyed.mem_of_get? there)
  · rw [Value.every_table] at held
    obtain ⟨entry, listed, rfl⟩ := Option.map_eq_some_iff.mp there
    exact (held entry (List.mem_of_find?_eq_some listed)).2
  · cases there

theorem every_getD {found : Option Datum} {fresh : Datum}
    (held : ∀ v, found = some v → v.Every region) (other : fresh.Every region) :
    (found.getD fresh).Every region := by
  cases found with
  | none => exact other
  | some v => exact held v rfl

private theorem confined_putMember {key : String} {value : Datum} (given : value.Every region) :
    Confined region (Edit.putMember reach key value) := by
  refine confined_reach fun s wider v more within held => ?_
  cases v with
  | object fields =>
    rw [Value.every_object] at held
    exact .pure within (Value.every_object.mpr (every_put held (given.mono more)))
  | table entries => exact .pure within (every_withMember held (given.mono more))
  | _ => exact stop_staysIn _ within held

private theorem confined_addElement {value : Datum} (given : value.Every region) :
    Confined region (Edit.addElement reach value) := by
  refine confined_reach fun s wider v more within held => ?_
  cases v with
  | list items =>
    refine .pure within (Value.every_list.mpr fun v member => ?_)
    rcases List.mem_append.mp member with before | new
    · exact Value.every_list.mp held v before
    · obtain rfl := List.mem_singleton.mp new
      exact given.mono more
  | _ => exact stop_staysIn _ within held

private theorem underKey_staysIn {key : String} {fresh : Datum} {fields : List (String × Datum)}
    (confined : Confined region edit) (more : ∀ share, region share → wider share)
    (within : s.Region wider) (held : ∀ entry ∈ fields, entry.2.Every wider)
    (started : fresh.Every wider) :
    StaysIn wider (fun widest e => ∀ entry ∈ e.after, entry.2.Every widest) s
      (Edit.underKey key fresh edit fields) := by
  have start : ((Keyed.get? fields key).getD fresh).Every wider :=
    every_getD (fun v there => held _ (Keyed.mem_of_get? there)) started
  refine (confined s wider _ more within start).bind fun edited _ _ widens left => ?_
  exact .pure widens.within (every_put (fun entry member => (held entry member).mono widens.keeps) left)

private theorem confined_listMember {key : String} (confined : Confined region edit) :
    Confined region (Edit.listMember reach key edit) := by
  refine confined_reach fun s wider v more within held => ?_
  cases v with
  | object fields =>
    rw [Value.every_object] at held
    refine (underKey_staysIn confined more within held (by simp)).bind fun edited _ _ widens left => ?_
    exact .pure widens.within (Value.every_object.mpr left)
  | table entries =>
    have start : (((Value.table entries).member? key).getD (.list [])).Every wider :=
      every_getD (fun v there => every_member? held there) (by simp)
    refine (confined s wider _ more within start).bind fun edited _ _ widens left => ?_
    exact .pure widens.within (every_withMember (held.mono widens.keeps) left)
  | _ => exact stop_staysIn _ within held

theorem every_startingFrom {v : Datum} (held : v.Every region) :
    (Edit.startingFrom v).Every region := by
  unfold Edit.startingFrom
  split
  · simp
  · exact held

theorem every_extended (place : Nat) {items : List Datum} (held : ∀ v ∈ items, v.Every region) :
    ∀ v ∈ Edit.extended place items, v.Every region := by
  intro v member
  rcases List.mem_append.mp member with before | new
  · exact held v before
  · obtain ⟨_, rfl⟩ := List.mem_replicate.mp new
    simp

private theorem confined_atPlace {place : Nat} (confined : Confined region edit) :
    Confined region (Edit.atPlace reach place edit) := by
  refine confined_reach fun s wider v more within held => ?_
  cases v with
  | list items =>
    have long := every_extended place (Value.every_list.mp held)
    have start : (Edit.startingFrom ((Edit.extended place items).getD place .null)).Every wider := by
      refine every_startingFrom ?_
      rw [List.getD_eq_getElem?_getD]
      exact every_getD (fun v there => long v (List.mem_of_getElem? there)) trivial
    refine (confined s wider _ more within start).bind fun edited _ _ widens left => ?_
    refine .pure widens.within (Value.every_list.mpr fun v member => ?_)
    rcases List.mem_or_eq_of_mem_set member with before | rfl
    · exact (long v before).mono widens.keeps
    · exact left
  | object fields => exact stop_staysIn _ within held
  | table entries =>
    dsimp only
    split
    · exact stop_staysIn _ within held
    · split
      · exact stop_staysIn _ within held
      · next key found there =>
        have inside := Value.every_table.mp held (key, found) (List.mem_of_find?_eq_some there)
        refine (confined s wider _ more within (every_startingFrom inside.2)).bind
          fun edited _ _ widens left => ?_
        refine .pure widens.within (Value.every_table.mpr fun entry member => ?_)
        obtain ⟨before, listed, rfl⟩ := List.mem_map.mp member
        have kept := Value.every_table.mp (held.mono widens.keeps) before listed
        split
        · exact ⟨kept.1, left⟩
        · exact kept
  | str text =>
    dsimp only
    split
    · exact stop_staysIn _ within held
    · next c _ =>
      refine (confined s wider (.str c.toString) more within trivial).bind fun edited _ _ widens _ => ?_
      exact .pure widens.within trivial
  | _ => exact stop_staysIn _ within held

/-- To write what a region holds into parameters that it holds stays in it. -/
theorem write_staysIn (address : Address) {value : Datum} {params : List (String × Datum)}
    (within : s.Region region) (given : value.Every region)
    (held : ∀ entry ∈ params, entry.2.Every region) :
    StaysIn region (fun wider e => ∀ entry ∈ e.after, entry.2.Every wider) s
      (write address value params) := by
  have more : ∀ share, region share → region share := fun _ member => member
  cases address with
  | key name => exact .pure within (every_put held given)
  | member name inner =>
    exact underKey_staysIn (confined_putMember given) more within held (by simp)
  | append name => exact underKey_staysIn (confined_addElement given) more within held (by simp)
  | elementMember name place inner =>
    exact underKey_staysIn (confined_atPlace (confined_putMember given)) more within held (by simp)
  | elementAppend name place inner =>
    exact underKey_staysIn (confined_atPlace (confined_listMember (confined_addElement given))) more
      within held (by simp)

/-! ## Data apart -/

/-- The datum and the others lie in regions of the store that have no place in common. -/
def Apart (s : Store) (v : Datum) (others : List Datum) : Prop :=
  ∃ own foreign : Share → Prop, s.Region own ∧ s.Region foreign ∧
    (∀ share, own share → ¬ foreign share) ∧
    v.Every own ∧ ∀ w ∈ others, w.Every foreign

end Store

namespace Graph

/-- Every container of the first graph is there in the second. -/
def Grows (g h : Graph) : Prop := g.store.Grows h.store

private theorem grows_lasting : Lasting Grows where
  refl g := Store.grows_lasting.refl g.store
  trans first second := Store.grows_lasting.trans first second

theorem serving_grows (kind : Exchange → Prop) : Act.Serving kind Grows where
  lasting := grows_lasting
  adds _ _ adds := adds.cells
  notes g _ _ := grows_lasting.refl g
  replaces g _ _ _ _ _ := grows_lasting.refl g

end Graph

namespace Act

open ResourceGraph.Graph Store

variable {g h : Graph} {id : ResourceId} {r : Resource} {request : Request} {path : String}
  {context : Context} {region : Share → Prop} {read : ResourceId → Act Datum}

/-! ## Building parameters inside a region -/

private theorem mem_projected {p : Projection} {name : String} {v : Datum} (member : p ∈ request.params)
    (source : p.source = .identifier (.str name)) (found : Keyed.get? r.identifiers name = some v) :
    v ∈ request.projected r :=
  List.mem_filterMap.mpr ⟨p, member, by rw [source]; exact found⟩

/-- The action widens a region of the store, changes nothing else, and gives parameters that the
wider region holds. -/
def StaysWithin (region : Share → Prop) (g : Graph) (x : Act (List (String × Datum))) : Prop :=
  ∃ wider, Widens g.store region (runIn x g).2.store wider ∧ (runIn x g).2.resources = g.resources ∧
    ∀ params, (runIn x g).1 = .ok params → ∀ entry ∈ params, entry.2.Every wider

/-- A projection that reads no data gives a literal or an identifier. -/
theorem project_held {p : Projection} (plain : p.source.kind ≠ .dataMember)
    (there : g.resources[id]? = some r)
    (held : ∀ name v, p.source = .identifier (.str name) → Keyed.get? r.identifiers name = some v →
      v.Every region) :
    (runIn (project read (some id) p) g).2 = g ∧
      ∀ v, (runIn (project read (some id) p) g).1 = .ok v → v.Every region := by
  have resourced : runIn (resource id) g = (.ok r, g) := resource_runs there
  unfold project
  split
  · exact ⟨rfl, fun v gave => by cases gave; trivial⟩
  · exact ⟨rfl, fun v gave => by cases gave; trivial⟩
  · exact ⟨rfl, fun v gave => by cases gave; trivial⟩
  · exact ⟨rfl, nofun⟩
  · next name _ source same =>
    cases same
    rw [runIn_bind_ok resourced]
    cases found : Keyed.get? r.identifiers name with
    | none => exact ⟨rfl, nofun⟩
    | some w =>
      refine ⟨rfl, fun v gave => ?_⟩
      cases gave
      exact held name w source found
  · exact ⟨rfl, nofun⟩
  · exact ⟨rfl, nofun⟩
  · exact ⟨rfl, nofun⟩
  · next _ _ source same =>
    cases same
    rw [source] at plain
    exact absurd rfl plain

private theorem apply_staysWithin {p : Projection} {params : List (String × Datum)}
    (plain : p.source.kind ≠ .dataMember) (there : g.resources[id]? = some r)
    (within : g.store.Region region)
    (held : ∀ name v, p.source = .identifier (.str name) → Keyed.get? r.identifiers name = some v →
      v.Every region) (kept : ∀ entry ∈ params, entry.2.Every region) :
    StaysWithin region g (apply read (some id) params p) := by
  obtain ⟨same, given⟩ := project_held plain there held
  unfold StaysWithin apply
  rw [runIn_bind]
  rcases ran : runIn (project read (some id) p) g with ⟨f | value, mid⟩
  · rw [ran] at same
    cases same
    exact ⟨region, .refl within, rfl, nofun⟩
  · rw [ran] at same given
    cases same
    obtain ⟨wider, widens, left⟩ := write_staysIn p.target.address within (given value rfl) kept
    dsimp only
    rw [runIn_bind, runIn_onStore]
    dsimp only
    split
    · refine ⟨wider, widens, rfl, fun params gave => ?_⟩
      cases gave
      exact left
    · exact ⟨wider, widens, rfl, nofun⟩

private theorem applyAll_staysWithin {projections : List Projection} {params : List (String × Datum)}
    (plain : ∀ p ∈ projections, p.source.kind ≠ .dataMember)
    (there : g.resources[id]? = some r)
    (within : g.store.Region region)
    (held : ∀ p ∈ projections, ∀ name v, p.source = .identifier (.str name) →
      Keyed.get? r.identifiers name = some v → v.Every region)
    (kept : ∀ entry ∈ params, entry.2.Every region) :
    StaysWithin region g (projections.foldlM (apply read (some id)) params) := by
  induction projections generalizing g params region with
  | nil => exact ⟨region, .refl within, rfl, fun _ gave => by cases gave; exact kept⟩
  | cons p rest ih =>
    obtain ⟨wider, widens, same, left⟩ :=
      apply_staysWithin (plain p List.mem_cons_self) there within (held p List.mem_cons_self) kept
    unfold StaysWithin
    rw [List.foldlM_cons, runIn_bind]
    rcases ran : runIn (apply read (some id) params p) g with ⟨f | next, mid⟩
    · rw [ran] at widens same
      exact ⟨wider, widens, same, nofun⟩
    · rw [ran] at widens same left
      obtain ⟨widest, further, still, last⟩ :=
        ih (fun p member => plain p (List.mem_cons_of_mem _ member)) (same ▸ there) widens.within
          (fun p member name v source found =>
            (held p (List.mem_cons_of_mem _ member) name v source found).mono widens.keeps)
          (left next rfl)
      exact ⟨widest, widens.trans further, still.trans same, last⟩

/-- A copy of the caller's parameters shares nothing. -/
theorem every_of_copyParams (region : Share → Prop) {given : Json} {named : Keyed Datum}
    {others : List (Datum × Datum)} (copied : copyParams given = .ok (named, others)) :
    (∀ entry ∈ named, entry.2.Every region) ∧
      ∀ entry ∈ others, entry.1.Every region ∧ entry.2.Every region := by
  unfold copyParams at copied
  split at copied
  · cases copied
    simp
  · split at copied
    · cases copied
    · cases copied
      constructor
      · intro entry member
        obtain ⟨before, _, rfl⟩ := List.mem_map.mp member
        exact Value.every_ofJson _
      · intro entry member
        obtain ⟨before, _, rfl⟩ := List.mem_map.mp member
        exact ⟨Value.every_ofJson _, Value.every_ofJson _⟩

theorem every_named {named : Keyed Datum} {others : List (Datum × Datum)}
    (fields : ∀ entry ∈ named, entry.2.Every region)
    (entries : ∀ entry ∈ others, entry.1.Every region ∧ entry.2.Every region) :
    (Value.table (named.map (fun (key, v) => (.str key, v)) ++ others)).Every region := by
  rw [Value.every_table]
  intro entry member
  rcases List.mem_append.mp member with first | last
  · obtain ⟨before, inside, rfl⟩ := List.mem_map.mp first
    exact ⟨trivial, fields before inside⟩
  · exact entries entry last

/-- To build parameters that read no data widens a region that holds the projected identifiers. -/
theorem buildParams_widens (read : ResourceId → Act Datum) (plain : request.ReadsNoData)
    (there : g.resources[id]? = some r)
    (within : g.store.Region region) (held : ∀ v ∈ request.projected r, v.Every region)
    (given : Json) :
    ∃ wider, Widens g.store region
      (runIn (buildParams read request { caller := some id, params := given }) g).2.store wider := by
  unfold buildParams
  rw [runIn_bind, runIn_liftResult]
  cases copied : copyParams given with
  | error f => exact ⟨region, .refl within⟩
  | ok start =>
    obtain ⟨named, others⟩ := start
    obtain ⟨fields, entries⟩ := every_of_copyParams region copied
    obtain ⟨wider, widens, _, left⟩ := applyAll_staysWithin plain there within
      (fun p member name v source found => held v (mem_projected member source found)) fields
    dsimp only
    rw [runIn_bind]
    rcases ran : runIn (request.params.foldlM (apply read (some id)) named) g with ⟨f | built, mid⟩
    · rw [ran] at widens
      exact ⟨wider, widens⟩
    · rw [ran] at widens left
      dsimp only
      split
      · obtain ⟨widest, further, _⟩ := share_staysIn (.object built) widens.within
          (Value.every_object.mpr (left built rfl))
        exact ⟨widest, widens.trans further⟩
      · obtain ⟨widest, further, _⟩ := share_staysIn _ widens.within
          (every_named (left built rfl) fun entry last =>
            ⟨(entries entry last).1.mono widens.keeps, (entries entry last).2.mono widens.keeps⟩)
        exact ⟨widest, widens.trans further⟩

/-! ## Loading and data apart -/

theorem search_grows (path : String) (v : Datum) : Keeps Graph.Grows (search path v) :=
  fun g => Path.search_grows path v g.store

end Act

end ResourceGraph
