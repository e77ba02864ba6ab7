import ResourceGraph.Proofs.Drawing
import ResourceGraph.Proofs.Shaping

/-!
Identifying a resource. A type called with values gives a resource of them exactly if each of its
identifiers is named once with a value that is not null and nothing else is named, or if its only
identifier is given its value without a name. Everything else is refused and leaves the graph as it
was.

One name is left out: a type takes `self` for an identifier, and then no call can give it.
-/

namespace ResourceGraph

open Outcome

namespace ResourceType

/-- The type is given just its identifiers: all of them by name, or the only one without its name.
None is null. The last argument is the value of each, in declared order. -/
inductive Given (t : ResourceType) : List Datum → Keyed Datum → Keyed Datum → Prop
  | named {given : Keyed Datum} (declared : ∀ name, name ∈ Keyed.keys given ↔ name ∈ t.identifiers)
      (full : ∀ name ∈ t.identifiers, Keyed.get? given name ≠ some .null) :
      t.Given [] given (t.identifiers.map fun name => (name, (Keyed.get? given name).getD .null))
  | single {name : String} {value : Datum} (only : t.identifiers = [name]) (full : value ≠ .null) :
      t.Given [value] [] [(name, value)]

variable {t : ResourceType} {unnamed : List Datum} {named given identifiers : Keyed Datum} {f : Failure}

/-! ## Placing values -/

/-- Values are placed if no name is one the call has a use for, and an unnamed value is the only one
and there is only one identifier for it, which is not named too. -/
theorem placed_ok : t.placed unnamed named = .ok given ↔
    (∀ name ∈ unusableNames, name ∉ Keyed.keys named) ∧
      (unnamed = [] ∧ given = named ∨
        ∃ name value, t.identifiers = [name] ∧ unnamed = [value] ∧ name ∉ Keyed.keys named ∧
          given = named ++ [(name, value)]) := by
  have usable : unusableNames.any (Keyed.has named) = false ↔
      ∀ name ∈ unusableNames, name ∉ Keyed.keys named := by
    rw [List.any_eq_false]
    exact forall₂_congr fun name _ => by rw [Keyed.has_iff]
  unfold placed
  cases taken : unusableNames.any (Keyed.has named) with
  | true =>
    rw [if_pos rfl, ← usable, taken]
    simp
  | false =>
    rw [if_neg Bool.false_ne_true, ← usable, taken]
    cases unnamed with
    | nil => simp [eq_comm]
    | cons value more =>
      dsimp only
      split
      · next name only =>
        cases twice : Keyed.has named name with
        | true =>
          have present : name ∈ Keyed.keys named := Keyed.has_iff.mp twice
          simp [refuseIdentifiers, only, present]
        | false =>
          have absent : name ∉ Keyed.keys named := fun member => by
            rw [Keyed.has_iff.mpr member] at twice
            cases twice
          simp [only, absent, eq_comm]
      · next manner =>
        constructor
        · intro refused
          cases refused
        · rintro ⟨-, ⟨none, -⟩ | ⟨name, one, only, alone, -⟩⟩
          · cases none
          · cases alone
            exact absurd rfl (manner name only)

/-- Values that are not placed are refused for how they identify, unless a name is one the call has
a use for. -/
theorem placed_refuses (refused : t.placed unnamed named = .error f) :
    (∃ fault, f = .identifier fault) ∨
      f = .misuse .wrongArguments ∧ ∃ name ∈ unusableNames, name ∈ Keyed.keys named := by
  unfold placed at refused
  split at refused
  · next taken =>
    cases refused
    obtain ⟨name, listed, has⟩ := List.any_eq_true.mp taken
    exact .inr ⟨rfl, name, listed, Keyed.has_iff.mp has⟩
  · split at refused
    · cases refused
    · split at refused
      · split at refused
        · cases refused
          exact .inl ⟨_, rfl⟩
        · cases refused
      · cases refused
        exact .inl ⟨_, rfl⟩

/-! ## Reading identifiers -/

private theorem valueFor_ok {name : String} {entry : String × Datum} :
    t.valueFor given name = .ok entry ↔
      (Keyed.get? given name).getD .null ≠ .null ∧
        entry = (name, (Keyed.get? given name).getD .null) := by
  unfold valueFor refuseIdentifiers
  split
  · next absent => simp [absent]
  · next null => simp [null]
  · next value full found =>
    rw [found]
    simp only [Option.getD_some, Except.ok.injEq]
    exact ⟨fun same => ⟨full, same.symm⟩, fun ⟨_, same⟩ => same.symm⟩

/-- Identifiers are read one by one: each has its value or none has. -/
theorem valuesFor_ok {names : List String} :
    names.mapM (t.valueFor given) = .ok identifiers ↔
      (∀ name ∈ names, (Keyed.get? given name).getD .null ≠ .null) ∧
        identifiers = names.map fun name => (name, (Keyed.get? given name).getD .null) := by
  induction names generalizing identifiers with
  | nil =>
    rw [List.mapM_nil, pure_ok]
    simp [eq_comm]
  | cons name rest ih =>
    rw [List.mapM_cons, bind_ok, List.forall_mem_cons, List.map_cons]
    constructor
    · rintro ⟨entry, first, others⟩
      obtain ⟨entries, later, whole⟩ := bind_ok.mp others
      obtain ⟨full, rfl⟩ := valueFor_ok.mp first
      obtain ⟨allFull, rfl⟩ := ih.mp later
      exact ⟨⟨full, allFull⟩, (pure_ok.mp whole).symm⟩
    · rintro ⟨⟨full, allFull⟩, rfl⟩
      exact ⟨_, valueFor_ok.mpr ⟨full, rfl⟩, bind_ok.mpr ⟨_, ih.mpr ⟨allFull, rfl⟩, rfl⟩⟩

/-- A resource is identified by named values exactly if all of them are declared and each declared
name has one. -/
theorem identify_ok : t.identify given = .ok identifiers ↔
    ("self" ∉ Keyed.keys given ∧ "resource_type" ∉ Keyed.keys given) ∧
      (∀ name ∈ Keyed.keys given, name ∈ t.identifiers) ∧
      (∀ name ∈ t.identifiers, (Keyed.get? given name).getD .null ≠ .null) ∧
      identifiers = t.identifiers.map fun name => (name, (Keyed.get? given name).getD .null) := by
  have usable : (Keyed.has given "self" || Keyed.has given "resource_type") = false ↔
      "self" ∉ Keyed.keys given ∧ "resource_type" ∉ Keyed.keys given := by
    rw [Bool.or_eq_false_iff, ← Keyed.has_iff, ← Keyed.has_iff, Bool.not_eq_true, Bool.not_eq_true]
  have declared : ((Keyed.keys given).filter fun name => !t.identifiers.contains name).isEmpty = true ↔
      ∀ name ∈ Keyed.keys given, name ∈ t.identifiers := by
    simp [List.filter_eq_nil_iff]
  unfold identify
  dsimp only
  rw [← usable, ← declared, ← valuesFor_ok (t := t)]
  cases Keyed.has given "self" || Keyed.has given "resource_type" with
  | true => simp
  | false =>
    cases ((Keyed.keys given).filter fun name => !t.identifiers.contains name).isEmpty with
    | true => simp
    | false => simp [refuseIdentifiers]

/-- Named values that do not identify a resource are refused for how they identify it, unless a name
is one that making the resource has a use for. -/
theorem identify_refuses (refused : t.identify given = .error f) :
    (∃ fault, f = .identifier fault) ∨
      f = .misuse .wrongArguments ∧ ∃ name ∈ Act.takenNames, name ∈ Keyed.keys given := by
  unfold identify at refused
  dsimp only at refused
  split at refused
  · next taken =>
    cases refused
    rw [Bool.or_eq_true, Keyed.has_iff, Keyed.has_iff] at taken
    rcases taken with own | other
    · exact .inr ⟨rfl, _, by simp [Act.takenNames, unusableNames], own⟩
    · exact .inr ⟨rfl, _, List.mem_cons_self, other⟩
  · split at refused
    · cases refused
      exact .inl ⟨_, rfl⟩
    · obtain ⟨name, -, unvalued⟩ := error_of_mapM refused
      exact .inl ⟨_, (Act.of_unvalued unvalued).1⟩

/-! ## Calling the type -/

/-- The identifiers that a call gives, before it makes the resource. -/
def identified (t : ResourceType) (unnamed : List Datum) (named : Keyed Datum) :
    Except Failure (Keyed Datum) := do
  t.identify (← t.placed unnamed named)

/-- No identifier is called like something that a call takes beside the identifiers. -/
theorem WellShaped.untaken (shaped : t.WellShaped) {name : String} (taken : name ∈ Act.takenNames)
    (declared : name ∈ t.identifiers) : name = "self" := by
  have unreserved := shaped.unreserved name (.inl declared)
  simp only [Act.takenNames, unusableNames, List.mem_cons, List.not_mem_nil, or_false] at taken
  rcases taken with rfl | rfl | rfl | rfl
  · exact absurd (by decide) unreserved
  · rfl
  · exact absurd (by decide) unreserved
  · exact absurd (by decide) unreserved

theorem WellShaped.identified_ok (shaped : t.WellShaped) :
    t.identified unnamed named = .ok identifiers ↔
      "self" ∉ t.identifiers ∧ t.Given unnamed named identifiers := by
  rw [identified, bind_ok]
  constructor
  · rintro ⟨given, placed, identify⟩
    obtain ⟨-, manner⟩ := placed_ok.mp placed
    obtain ⟨⟨unself, -⟩, known, full, rfl⟩ := identify_ok.mp identify
    have declared : ∀ name ∈ t.identifiers, name ∈ Keyed.keys given := by
      intro name member
      by_contra absent
      exact full name member (by rw [Keyed.get?_eq_none_iff.mpr absent, Option.getD_none])
    refine ⟨fun member => unself (declared _ member), ?_⟩
    rcases manner with ⟨rfl, rfl⟩ | ⟨name, value, only, rfl, absent, rfl⟩
    · refine .named (fun name => ⟨known name, declared name⟩) fun name member null => full name member ?_
      rw [null, Option.getD_some]
    · -- Nothing can have been named, since the only identifier is not.
      have none : named = [] := by
        rw [List.eq_nil_iff_forall_not_mem]
        intro entry member
        have listed : entry.1 ∈ Keyed.keys named := List.mem_map_of_mem member
        have declared := known entry.1 (by simp [Keyed.keys] at listed ⊢; exact .inl listed)
        rw [only, List.mem_singleton] at declared
        exact absent (declared ▸ listed)
      subst none
      have found : Keyed.get? ([] ++ [(name, value)] : Keyed Datum) name = some value := by
        simp [Keyed.get?]
      have filled := full name (by simp [only])
      rw [found, Option.getD_some] at filled
      simpa only [only, List.map_cons, List.map_nil, found, Option.getD_some]
        using Given.single only filled
  · rintro ⟨unself, given⟩
    cases given with
    | named declared full =>
      have usable : ∀ name ∈ Act.takenNames, name ∉ Keyed.keys named := fun name taken member =>
        have own := (declared name).mp member
        unself (shaped.untaken taken own ▸ own)
      refine ⟨named, placed_ok.mpr
        ⟨fun name taken => usable name (List.mem_cons_of_mem _ taken), .inl ⟨rfl, rfl⟩⟩,
        identify_ok.mpr ⟨⟨?_, usable _ List.mem_cons_self⟩, fun name => (declared name).mp,
          fun name member => ?_, rfl⟩⟩
      · exact usable _ (by simp [Act.takenNames, unusableNames])
      · have there := (declared name).mpr member
        cases found : Keyed.get? named name with
        | none => exact absurd there (Keyed.get?_eq_none_iff.mp found)
        | some value =>
          rintro rfl
          exact full name member found
    | @single name value only full =>
      have own : name ≠ "self" := fun same => unself (by simp [only, same])
      have other : name ≠ "resource_type" := by
        rintro rfl
        have declared : "resource_type" ∈ t.identifiers := by simp [only]
        exact absurd (shaped.untaken List.mem_cons_self declared) (by decide)
      refine ⟨[(name, value)], placed_ok.mpr ⟨fun _ _ => List.not_mem_nil, .inr ⟨name, value, only, rfl,
        List.not_mem_nil, rfl⟩⟩, identify_ok.mpr ?_⟩
      simp [only, Keyed.keys, Keyed.get?, own.symm, other.symm, full]

/-- What is refused is refused for how it identifies the resource, unless a name has another use. -/
theorem WellShaped.identified_refuses (shaped : t.WellShaped)
    (refused : t.identified unnamed named = .error f) :
    (∃ fault, f = .identifier fault) ∨ f = .misuse .wrongArguments ∧
      (t.identifiers = ["self"] ∨ ∃ name ∈ Act.takenNames, name ∈ Keyed.keys named) := by
  rw [identified] at refused
  cases placed : t.placed unnamed named with
  | error f =>
    rw [placed] at refused
    cases refused
    obtain fault | ⟨misuse, name, taken, member⟩ := placed_refuses placed
    · exact .inl fault
    · exact .inr ⟨misuse, .inr ⟨name, List.mem_cons_of_mem _ taken, member⟩⟩
  | ok given =>
    rw [placed] at refused
    obtain fault | ⟨misuse, name, taken, member⟩ := identify_refuses refused
    · exact .inl fault
    refine .inr ⟨misuse, ?_⟩
    obtain ⟨-, ⟨-, rfl⟩ | ⟨only, value, sole, -, -, rfl⟩⟩ := placed_ok.mp placed
    · exact .inr ⟨name, taken, member⟩
    · rw [Keyed.keys, List.map_append, List.mem_append] at member
      rcases member with earlier | last
      · exact .inr ⟨name, taken, earlier⟩
      · obtain rfl := List.mem_singleton.mp last
        have self := shaped.untaken taken (by simp [sole])
        exact .inl (self ▸ sole)

end ResourceType

namespace Act

open ResourceGraph.Graph

variable {g : Graph} {ref : TypeRef} {t : ResourceType}

/-- Calling a type with a client adds the resource that the values identify, or changes nothing. -/
theorem runIn_construct_identified (there : g.types[ref.index]? = some t) (unnamed : List Datum)
    (named : Keyed Datum) (client : ClientId) (data : Option Datum) :
    runIn (construct ref unnamed named (some client) data) g =
      match t.identified unnamed named with
      | .ok identifiers =>
        (.ok g.resources.size,
          { g with resources := g.resources.push { type := ref, identifiers, client, data } })
      | .error f => (.error f, g) := by
  have typing : runIn (typeOf ref) g = (.ok t, g) := by
    rw [runIn_typeOf, there]
    rfl
  unfold construct makeResource
  rw [runIn_bind_ok typing, ResourceType.identified]
  cases placed : t.placed unnamed named with
  | error f => exact runIn_bind_error (runIn_liftResult _ _)
  | ok given =>
    have goesOn : (Except.ok given >>= fun given => t.identify given) = t.identify given := rfl
    rw [runIn_bind_ok (runIn_liftResult _ _), runIn_bind_ok typing, goesOn]
    cases t.identify given with
    | error f => exact runIn_bind_error (runIn_liftResult _ _)
    | ok identifiers =>
      rw [runIn_bind_ok (runIn_liftResult _ _)]
      exact runIn_bind_ok (runIn_liftResult _ _)

/-- **What a call of a type gives.** A type that has no identifier called `self`, called with a
client and with values, gives a new resource exactly if the values are given as its identifiers are
to be given. The resource has just these values, in declared order. Every other call leaves the
graph as it was, and it fails for how the resource was to be identified; only names that the call
has a use for fail otherwise, and `self` is one. -/
theorem construct_gives_given {label : String} {declared : List String} {factory : Option ClientId}
    {changes : List TypeChange} (made : ResourceType.make label declared factory = .ok t)
    (there : g.types[ref.index]? = some (t.after changes)) (unnamed : List Datum) (named : Keyed Datum)
    (client : ClientId) (data : Option Datum) :
    (∀ id h, runIn (construct ref unnamed named (some client) data) g = (.ok id, h) ↔
      "self" ∉ (t.after changes).identifiers ∧
        ∃ identifiers, (t.after changes).Given unnamed named identifiers ∧
        id = g.resources.size ∧
          h = { g with resources := g.resources.push { type := ref, identifiers, client, data } }) ∧
    ∀ f h, runIn (construct ref unnamed named (some client) data) g = (.error f, h) →
      h = g ∧ ((∃ fault, f = .identifier fault) ∨ f = .misuse .wrongArguments ∧
        ((t.after changes).identifiers = ["self"] ∨ ∃ name ∈ takenNames, name ∈ Keyed.keys named)) := by
  have shaped := (ResourceType.wellShaped_of_make made).after changes
  rw [runIn_construct_identified there]
  constructor
  · intro id h
    constructor
    · intro ran
      cases result : (t.after changes).identified unnamed named with
      | error f =>
        rw [result] at ran
        cases ran
      | ok identifiers =>
        rw [result] at ran
        cases ran
        obtain ⟨unself, given⟩ := shaped.identified_ok.mp result
        exact ⟨unself, identifiers, given, rfl, rfl⟩
    · rintro ⟨unself, identifiers, given, rfl, rfl⟩
      rw [shaped.identified_ok.mpr ⟨unself, given⟩]
  · intro f h ran
    cases result : (t.after changes).identified unnamed named with
    | error f =>
      rw [result] at ran
      cases ran
      exact ⟨rfl, shaped.identified_refuses result⟩
    | ok identifiers =>
      rw [result] at ran
      cases ran

/-- Values that are named in another order than they are declared in. -/
theorem construct_gives_given_reordered :
    ∃ t, ResourceType.make "Object" ["bucket", "key"] none = .ok t ∧
      let g : Graph := { types := #[t.after [.freeze]] }
      let identifiers : Keyed Datum := [("bucket", .str "logs"), ("key", .str "today")]
      runIn (construct ⟨0, "Object"⟩ [] [("key", .str "today"), ("bucket", .str "logs")]
        (some 0) none) g =
        (.ok 0, { g with resources := #[{ type := ⟨0, "Object"⟩, identifiers, client := 0 }] }) := by
  have made : ResourceType.make "Object" ["bucket", "key"] none =
      .ok { name := "Object", identifiers := ["bucket", "key"] } := rfl
  refine ⟨_, made, ?_⟩
  refine ((construct_gives_given made rfl _ _ 0 none).1 0 _).mpr
    ⟨by decide, _, .named (fun name => ?_) (fun name member => ?_), rfl, rfl⟩
  · change name ∈ ["key", "bucket"] ↔ name ∈ ["bucket", "key"]
    simp [or_comm]
  · change name ∈ ["bucket", "key"] at member
    rw [List.mem_cons, List.mem_singleton] at member
    rcases member with rfl | rfl <;> simp [Keyed.get?]

/-- A type takes `self` for its identifier, and no resource can be made with it. -/
theorem self_never_given :
    ∃ t, ResourceType.make "User" ["self"] none = .ok t ∧
      t.Given [.str "ann"] [] [("self", .str "ann")] ∧
      let g : Graph := { types := #[t] }
      runIn (construct ⟨0, "User"⟩ [.str "ann"] [] (some 0) none) g =
        (.error (.misuse .wrongArguments), g) :=
  ⟨{ name := "User", identifiers := ["self"] }, rfl, .single rfl nofun, rfl⟩

end Act

end ResourceGraph
