import ResourceGraph.Model.Compile
import ResourceGraph.Proofs.Wiring

/-!
What carrying out a plan leaves. The steps of a plan meet in no type but the one they attach to, so
that each type ends as if only its own steps had been taken, in their order. A type keeps its names
apart through every one of them.
-/

namespace ResourceGraph

open Outcome

/-- The names of a type are kept apart: identifiers are distinct, operations too, no operation is
called like an identifier, and neither like something that every resource has. -/
structure ResourceType.NamesApart (t : ResourceType) : Prop where
  identifiers : t.identifiers.Nodup
  unreserved : ∀ name ∈ t.identifiers, name ∉ reservedNames
  operations : t.operationNames.Nodup
  free : ∀ name ∈ t.operationNames, name ∉ t.identifiers ∧ name ∉ reservedNames

namespace ResourceType

variable {t u : ResourceType}

theorem of_addIdentifier {name : String} (added : t.addIdentifier name = .ok u) :
    u = { t with identifiers := t.identifiers ++ [name], accessors := t.accessors ++ [(name, name)] } ∧
      name ∉ t.identifiers ∧ name ∉ reservedNames := by
  unfold addIdentifier at added
  split at added
  · cases added
  · split at added
    · cases added
    · next fresh =>
      split at added
      · cases added
      · next unreserved =>
        cases added
        exact ⟨rfl, by simpa using fresh, by simpa using unreserved⟩

theorem of_addOperation {name : String} {o : Operation} (added : t.addOperation name o = .ok u) :
    u = { t with operations := t.operations ++ [(name, o)] } ∧ name ∉ t.operationNames ∧
      name ∉ t.identifiers ∧ name ∉ reservedNames := by
  unfold addOperation at added
  split at added
  · cases added
  · split at added
    · cases added
    · next fresh =>
      split at added
      · cases added
      · next free =>
        cases added
        rw [Keyed.has_iff] at fresh
        simp only [Bool.or_eq_true, List.contains_iff_mem, not_or] at free
        exact ⟨rfl, fresh, free⟩

theorem of_setLoad {o : Operation} (set : t.setLoad o = .ok u) :
    u = { t with load := some o } ∧ o.kind = .load ∧ t.load = none := by
  unfold setLoad at set
  split at set
  · cases set
  · split at set
    · cases set
    · next kind =>
      split at set
      · cases set
      · next unset =>
        cases set
        exact ⟨rfl, by simpa using kind, by simpa using unset⟩

private theorem namesApart_addIdentifier {name : String} (apart : t.NamesApart)
    (bare : t.operations = [])
    (added : t.addIdentifier name = .ok u) : u.NamesApart ∧ u.operations = [] := by
  obtain ⟨rfl, fresh, unreserved⟩ := of_addIdentifier added
  have none : t.operationNames = [] := by simp [operationNames, Keyed.keys, bare]
  refine ⟨⟨?_, ?_, apart.operations, ?_⟩, bare⟩
  · exact List.nodup_append.mpr ⟨apart.identifiers, by simp, by
      rintro a member b last rfl
      exact fresh (List.mem_singleton.mp last ▸ member)⟩
  · intro other member
    rcases List.mem_append.mp member with old | new
    · exact apart.unreserved other old
    · exact List.mem_singleton.mp new ▸ unreserved
  · intro other member
    have old : other ∈ t.operationNames := member
    rw [none] at old
    cases old

theorem namesApart_addOperation {name : String} {o : Operation} (apart : t.NamesApart)
    (added : t.addOperation name o = .ok u) : u.NamesApart := by
  obtain ⟨rfl, fresh, unlike, unreserved⟩ := of_addOperation added
  have names : operationNames { t with operations := t.operations ++ [(name, o)] } =
      t.operationNames ++ [name] := by
    simp [operationNames, Keyed.keys]
  refine ⟨apart.identifiers, apart.unreserved, ?_, ?_⟩
  · rw [names]
    exact List.nodup_append.mpr ⟨apart.operations, by simp, by
      rintro a member b last rfl
      exact fresh (List.mem_singleton.mp last ▸ member)⟩
  · intro other member
    rw [names] at member
    rcases List.mem_append.mp member with old | new
    · exact apart.free other old
    · obtain rfl := List.mem_singleton.mp new
      exact ⟨unlike, unreserved⟩

/-- Identifiers added one after another go behind those that are there, each with its accessor. -/
theorem of_addIdentifiers {names : List String} (apart : t.NamesApart) (bare : t.operations = [])
    (added : names.foldlM addIdentifier t = .ok u) :
    u = { t with
      identifiers := t.identifiers ++ names
      accessors := t.accessors ++ names.map fun name => (name, name) } ∧ u.NamesApart := by
  induction names generalizing t with
  | nil =>
    rw [List.foldlM_nil, pure_ok] at added
    subst added
    simpa using apart
  | cons first rest ih =>
    rw [List.foldlM_cons, bind_ok] at added
    obtain ⟨next, one, added⟩ := added
    obtain ⟨apart, bare⟩ := namesApart_addIdentifier apart bare one
    obtain ⟨whole, named⟩ := ih apart bare added
    obtain ⟨rfl, _⟩ := of_addIdentifier one
    simpa [whole] using named

/-- A new type has the identifiers it was given with an accessor for each, and nothing attached. -/
theorem of_make {name : String} {identifiers : List String} {factory : Option Nat}
    (made : ResourceType.make name identifiers factory = .ok t) :
    t.name = name ∧ t.identifiers = identifiers ∧ t.operations = [] ∧ t.load = none ∧ t.NamesApart ∧
      t.accessors = identifiers.map fun name => (name, name) := by
  have bare : NamesApart { name, factory } :=
    ⟨by simp, by simp, by simp [operationNames, Keyed.keys], by simp [operationNames, Keyed.keys]⟩
  obtain ⟨rfl, apart⟩ := of_addIdentifiers bare rfl made
  exact ⟨rfl, by simp, rfl, rfl, apart, by simp⟩

end ResourceType

/-- The operation and its name, where one is attached. -/
def Attachment.entry? : Attachment → Option (String × Operation)
  | .load _ => none
  | .operation name o => some (name, o)

/-- What is attached to one type loses nothing it had, in the order of the attachments. -/
theorem ResourceType.of_attachments {attachments : List Attachment} {t u : ResourceType}
    (apart : t.NamesApart) (ran : attachments.foldlM Draft.attachTo t = .ok u) :
    u.name = t.name ∧ u.identifiers = t.identifiers ∧ u.NamesApart ∧
      u.operations = t.operations ++ attachments.filterMap Attachment.entry? ∧
      ∀ o, u.load = some o → t.load = some o ∨ .load o ∈ attachments := by
  induction attachments generalizing t with
  | nil =>
    rw [List.foldlM_nil, pure_ok] at ran
    subst ran
    simpa using apart
  | cons first rest ih =>
    rw [List.foldlM_cons, bind_ok] at ran
    obtain ⟨next, attached, ran⟩ := ran
    cases first with
    | load o =>
      obtain ⟨rfl, _, unset⟩ := of_setLoad attached
      have kept : NamesApart { t with load := some o } :=
        ⟨apart.identifiers, apart.unreserved, apart.operations, apart.free⟩
      obtain ⟨name, identifiers, named, operations, loads⟩ := ih kept ran
      refine ⟨name, identifiers, named, ?_, fun other set => ?_⟩
      · rw [List.filterMap_cons_none rfl]
        exact operations
      · rcases loads other set with same | later
        · cases same
          exact .inr List.mem_cons_self
        · exact .inr (List.mem_cons_of_mem _ later)
    | operation label o =>
      have kept := namesApart_addOperation apart attached
      obtain ⟨rfl, _⟩ := of_addOperation attached
      obtain ⟨name, identifiers, named, operations, loads⟩ := ih kept ran
      refine ⟨name, identifiers, named, ?_, fun other set => ?_⟩
      · have entry : Attachment.entry? (.operation label o) = some (label, o) := rfl
        rw [List.filterMap_cons_some entry, operations]
        simp
      · rcases loads other set with same | later
        · exact .inl same
        · exact .inr (List.mem_cons_of_mem _ later)

namespace Draft

variable {d e : Draft} {site : Site} {t u : ResourceType}

/-- The type at a site. -/
def typeAt? (d : Draft) : Site → Option ResourceType
  | .root => some d.root
  | .resource index => d.types[index]?.map Prod.snd

/-- Changing the type at a site changes no other, and no names. -/
theorem of_change {f : ResourceType → Except Failure ResourceType}
    (changed : d.change site f = .ok e) :
    Keyed.keys e.types = Keyed.keys d.types ∧
      (∀ t, d.typeAt? site = some t → ∃ u, f t = .ok u ∧ e.typeAt? site = some u) ∧
      ∀ other, other ≠ site → e.typeAt? other = d.typeAt? other := by
  unfold change at changed
  split at changed
  · obtain ⟨root, made, changed⟩ := bind_ok.mp changed
    rw [pure_ok] at changed
    subst changed
    refine ⟨rfl, ?_, ?_⟩
    · rintro t ⟨⟩
      exact ⟨root, made, rfl⟩
    · intro other different
      cases other with
      | root => exact absurd rfl different
      | resource index => rfl
  · next index =>
    split at changed
    · next name type found =>
      obtain ⟨type', made, changed⟩ := bind_ok.mp changed
      rw [pure_ok] at changed
      subst changed
      have inside : index < d.types.length := (List.getElem?_eq_some_iff.mp found).1
      refine ⟨?_, ?_, ?_⟩
      · rw [List.getElem?_eq_getElem inside, Option.some.injEq] at found
        have within : index < (d.types.map Prod.fst).length := by simpa using inside
        have same : name = (d.types.map Prod.fst)[index] := by simp [found]
        simp only [Keyed.keys, List.map_set, same, List.set_getElem_self]
      · intro t there
        simp only [typeAt?, found, Option.map_some, Option.some.injEq] at there
        subst there
        exact ⟨type', made, by simp [typeAt?, inside]⟩
      · intro other different
        cases other with
        | root => rfl
        | resource place =>
          have apart : index ≠ place := fun same => different (by rw [same])
          simp [typeAt?, List.getElem?_set_ne apart]
    · next missing =>
      cases changed
      refine ⟨rfl, ?_, fun _ _ => rfl⟩
      intro t there
      simp [typeAt?, missing] at there

end Draft

/-- What steps attach at a site, in their order. -/
def Plan.attachedAt (site : Site) (steps : List Step) : List Attachment :=
  steps.filterMap fun step => if step.site = site then step.attachment.toOption else none

/-- **Each type ends as if only its own steps had been taken.** Every step could be taken, no type
is lost or renamed, and what happened at a site is what the steps of that site attach, one after
another. -/
theorem Draft.of_steps {steps : List Step} {d e : Draft} (ran : steps.foldlM Draft.take d = .ok e) :
    (∀ step ∈ steps, ∃ a, step.attachment = .ok a) ∧ Keyed.keys e.types = Keyed.keys d.types ∧
      ∀ site t, d.typeAt? site = some t →
        ∃ u, e.typeAt? site = some u ∧ (Plan.attachedAt site steps).foldlM attachTo t = .ok u := by
  induction steps generalizing d with
  | nil =>
    rw [List.foldlM_nil, pure_ok] at ran
    subst ran
    refine ⟨by simp, rfl, fun site t there => ⟨t, there, ?_⟩⟩
    simp [Plan.attachedAt, pure_ok]
  | cons step rest ih =>
    rw [List.foldlM_cons, bind_ok] at ran
    obtain ⟨next, taken, ran⟩ := ran
    obtain ⟨attachment, made, changed⟩ := bind_ok.mp taken
    obtain ⟨names, here, elsewhere⟩ := of_change changed
    obtain ⟨possible, restNames, final⟩ := ih ran
    refine ⟨?_, restNames.trans names, fun site t there => ?_⟩
    · intro other member
      rcases List.mem_cons.mp member with rfl | member
      · exact ⟨attachment, made⟩
      · exact possible other member
    · by_cases own : step.site = site
      · subst own
        obtain ⟨between, attached, there⟩ := here t there
        obtain ⟨u, last, run⟩ := final step.site between there
        refine ⟨u, last, ?_⟩
        simp only [Plan.attachedAt, List.filterMap_cons, ↓reduceIte, made, Except.toOption,
          List.foldlM_cons]
        exact bind_ok.mpr ⟨between, attached, run⟩
      · rw [← elsewhere site (Ne.symm own)] at there
        obtain ⟨u, last, run⟩ := final site t there
        refine ⟨u, last, ?_⟩
        simpa [Plan.attachedAt, own] using run

end ResourceGraph
