import ResourceGraph.Proofs.Fanout
import ResourceGraph.Proofs.Using
import ResourceGraph.Proofs.WellFormed

/-!
Resources come from resources. Whatever a resource of a model builds calls the client of that
resource, is of a type of the model, and has exactly the identifiers of its type, none of them null.
A graph keeps resources for later in two places, as references of a resource and as elements of an
enumeration that are left to be given; these are kin of the resource that keeps them or began the
enumeration, and stay so whatever is done.
-/

namespace ResourceGraph

open ResourceGraph.Graph Store Outcome

/-! ## What is kept for later -/

/-- The resources that were built. -/
def Built.members : Built → List ResourceId
  | one id => [id]
  | several _ members => members

/-- The resource that an element is. -/
def Element.resource? : Element → Option ResourceId
  | resource id => some id
  | value _ | response _ => none

/-- The resources that are left of a page. -/
def Ready.resources : Ready → List ResourceId
  | elements left => left.filterMap Element.resource?
  | listFrom _ _ | keysOf _ _ _ => []

/-- The resources that an enumeration still has to give of its last page. -/
def Progress.resources : Progress → List ResourceId
  | under _ ready => ready.resources
  | untouched _ | exhausted => []

/-- The resources that an operation gives. -/
def Outcome.resources : Outcome → List ResourceId
  | built b => b.members
  | value _ | response _ | enumeration _ => []

/-- The enumerations that an operation gives. -/
def Outcome.enumerations : Outcome → List EnumerationId
  | enumeration id => [id]
  | value _ | response _ | built _ => []

/-! ## Whole resources -/

/-- The reference is to this type of the model. -/
def Model.Owns (m : Model) (ref : TypeRef) (type : ResourceType) : Prop :=
  ref = m.rootRef ∧ type = m.root ∨ m.types[ref.index]? = some (ref.name, type)

/-- The resource calls the client, is of a type of the model, and has exactly the identifiers of the
type, in their order and none of them null. -/
structure Resource.Whole (m : Model) (c : ClientId) (r : Resource) : Prop where
  client : r.client = c
  typed : ∃ type, m.Owns r.type type ∧ Keyed.keys r.identifiers = type.identifiers
  filled : ∀ entry ∈ r.identifiers, entry.2 ≠ .null

/-- All resources are still there, and all enumerations, in the context that they were begun in. -/
structure Graph.GoesOn (g h : Graph) : Prop where
  resources : ∀ (id : ResourceId) r, g.resources[id]? = some r →
    ∃ s, h.resources[id]? = some s ∧ r.Remains s
  enumerations : ∀ (id : EnumerationId) e, g.enumerations[id]? = some e →
    ∃ f, h.enumerations[id]? = some f ∧ f.context = e.context

/-- The enumeration was begun in the context. -/
def Graph.Begun (g : Graph) (id : EnumerationId) (context : Context) : Prop :=
  ∃ e, g.enumerations[id]? = some e ∧ e.context = context

/-- There is a whole resource. -/
def Graph.Has (m : Model) (c : ClientId) (g : Graph) (id : ResourceId) : Prop :=
  ∃ r, g.resources[id]? = some r ∧ r.Whole m c

/-- The resource is whole and calls the client of the other one. -/
def Graph.Kin (m : Model) (g : Graph) (caller : Option ResourceId) (id : ResourceId) : Prop :=
  ∃ owner r, caller = some owner ∧ g.resources[owner]? = some r ∧ g.Has m r.client id

/-- The enumeration makes resources of types of the model, and those that are left are kin of its
caller. -/
structure Enumeration.Kindred (m : Model) (g : Graph) (e : Enumeration) : Prop where
  target : ∀ b, e.harvest = .resources b → ∃ type, m.Owns b.target type
  elements : ∀ x ∈ e.progress.resources, g.Kin m e.context.caller x

/-- The graph is one of the model, and all resources that it keeps for later are kin of those that
they are kept for. -/
structure Graph.Kindred (m : Model) (g : Graph) : Prop where
  types : g.types = (Graph.ofModel m []).types
  references : ∀ (id : ResourceId) r, g.resources[id]? = some r →
    ∀ entry ∈ r.references, ∀ x ∈ entry.2.members, g.Kin m (some id) x
  enumerations : ∀ (id : EnumerationId) e, g.enumerations[id]? = some e → e.Kindred m g

/-- The graph changed, but the references that its resources keep did not. -/
structure Graph.Settled (g h : Graph) : Prop where
  change : Change Act.anyCall g h
  references : ∀ (id : ResourceId) s, h.resources[id]? = some s →
    s.references = [] ∨ ∃ r, g.resources[id]? = some r ∧ s.references = r.references

section Kinship

variable {m : Model} {c : ClientId} {g h : Graph} {id : ResourceId} {r s : Resource}

theorem Model.Owns.found {ref : TypeRef} {type : ResourceType} (owns : m.Owns ref type) :
    (Graph.ofModel m []).types[ref.index]? = some type := by
  rcases owns with ⟨rfl, rfl⟩ | listed
  · simp [Graph.ofModel, Model.rootRef]
  · have inside : ref.index < m.types.length := (List.getElem?_eq_some_iff.mp listed).1
    have there : (m.types.map Prod.snd)[ref.index]? = some type := by
      rw [List.getElem?_map, listed]
      rfl
    simpa [Graph.ofModel, List.getElem?_append_left, inside] using there

theorem Resource.Remains.whole (remains : r.Remains s) (whole : r.Whole m c) : s.Whole m c where
  client := remains.client.trans whole.client
  typed := by
    rw [remains.type, remains.identifiers]
    exact whole.typed
  filled := by
    rw [remains.identifiers]
    exact whole.filled

/-- A resource is never given null for an identifier. -/
theorem ResourceType.filled_of_identify {t : ResourceType} {given identifiers : Keyed Datum}
    (identified : t.identify given = .ok identifiers) : ∀ entry ∈ identifiers, entry.2 ≠ .null := by
  intro entry member
  obtain ⟨name, _, valued⟩ := mem_of_mapM (Act.of_identify identified).2 member
  exact (Act.of_valueFor valued).2.1

/-- A resource that was just made of a type of the model is whole. -/
theorem Resource.New.whole {type : ResourceType} (types : g.types = (Graph.ofModel m []).types)
    (new : r.New g.types) (owns : m.Owns r.type type) : r.Whole m r.client := by
  obtain ⟨given, identified⟩ := new.identified
  rw [types, owns.found, Option.getD_some] at identified
  exact ⟨rfl, ⟨type, owns, Act.keys_of_identify identified⟩, ResourceType.filled_of_identify identified⟩

namespace Graph

theorem goesOn_lasting : Lasting GoesOn where
  refl _ :=
    ⟨fun _ r there => ⟨r, there, Resource.remains_lasting.refl r⟩, fun _ e there => ⟨e, there, rfl⟩⟩
  trans {g h i} first second := by
    refine ⟨Resource.remains_lasting.members first.resources second.resources, fun id e there => ?_⟩
    obtain ⟨f, mid, same⟩ := first.enumerations id e there
    obtain ⟨k, last, again⟩ := second.enumerations id f mid
    exact ⟨k, last, again.trans same⟩

theorem GoesOn.of_change {kind : Exchange → Prop} (change : Change kind g h) : g.GoesOn h :=
  ⟨change.resources, fun _ e there => ⟨e, change.enumerations ▸ there, rfl⟩⟩

theorem Has.goesOn (has : g.Has m c id) (on : g.GoesOn h) : h.Has m c id := by
  obtain ⟨r, there, whole⟩ := has
  obtain ⟨s, still, remains⟩ := on.resources id r there
  exact ⟨s, still, remains.whole whole⟩

theorem Kin.goesOn {caller : Option ResourceId} (kin : g.Kin m caller id) (on : g.GoesOn h) :
    h.Kin m caller id := by
  obtain ⟨owner, r, same, there, has⟩ := kin
  obtain ⟨s, still, remains⟩ := on.resources owner r there
  refine ⟨owner, s, same, still, ?_⟩
  rw [remains.client]
  exact has.goesOn on

theorem Begun.goesOn {x : EnumerationId} {context : Context} (begun : g.Begun x context)
    (on : g.GoesOn h) : h.Begun x context := by
  obtain ⟨e, there, rfl⟩ := begun
  exact on.enumerations x e there

theorem Kin.of_change {caller : Option ResourceId} (kin : g.Kin m caller id) {kind : Exchange → Prop}
    (change : Change kind g h) : h.Kin m caller id := kin.goesOn (.of_change change)

/-- Kin of a whole resource is whole, with the same client. -/
theorem Kin.has {owner : ResourceId} (kin : g.Kin m (some owner) id) (has : g.Has m c owner) :
    g.Has m c id := by
  obtain ⟨_, r, ⟨⟩, there, whole⟩ := kin
  obtain ⟨s, same, own⟩ := has
  cases there.symm.trans same
  exact own.client ▸ whole

theorem settled_lasting : Lasting Settled where
  refl g := ⟨change_lasting.refl g, fun _ s there => .inr ⟨s, there, rfl⟩⟩
  trans {g h i} first second := by
    refine ⟨change_lasting.trans first.change second.change, fun id s there => ?_⟩
    rcases second.references id s there with none | ⟨r, mid, same⟩
    · exact .inl none
    · rw [same]
      exact first.references id r mid

theorem Settled.of_resources (change : Change Act.anyCall g h) (same : h.resources = g.resources) :
    Settled g h := ⟨change, fun _ s there => .inr ⟨s, same ▸ there, rfl⟩⟩

/-- Loading and building leave the references that are kept. -/
theorem building_settled : Act.Building Act.anyCall Settled where
  lasting := settled_lasting
  store g s learns := .of_resources (Act.storing_change.store g s learns) rfl
  calls g h calls := .of_resources calls.change calls.resources
  sets g id data := by
    refine ⟨Act.building_change.sets g id data, fun other s there => .inr ?_⟩
    have there : (g.resources.modify id fun r => { r with data := some data })[other]? = some s := there
    rw [Array.getElem?_modify] at there
    split at there
    · obtain ⟨r, found, rfl⟩ := Option.map_eq_some_iff.mp there
      exact ⟨r, found, rfl⟩
    · exact ⟨s, there, rfl⟩
  adds g r new := by
    refine ⟨Act.building_change.adds g r new, fun other s there => ?_⟩
    have there : (g.resources.push r)[other]? = some s := there
    rw [Array.getElem?_push] at there
    split at there
    · cases there
      exact .inl new.references
    · exact .inr ⟨s, there, rfl⟩
  lists g := .of_resources (Act.building_change.lists g) rfl

theorem Kindred.of_settled (kindred : g.Kindred m) (settled : Settled g h) : h.Kindred m where
  types := settled.change.types.trans kindred.types
  references id s there entry listed x member := by
    rcases settled.references id s there with none | ⟨r, before, same⟩
    · rw [none] at listed
      cases listed
    · exact (kindred.references id r before entry (same ▸ listed) x member).of_change settled.change
  enumerations id e there := by
    have fine := kindred.enumerations id e (settled.change.enumerations ▸ there)
    exact ⟨fine.target, fun x left => (fine.elements x left).of_change settled.change⟩

/-- Only the enumerations changed, and they make kin. -/
theorem Kindred.of_enumerations (kindred : g.Kindred m) {enumerations : Array Enumeration}
    (fine : ∀ (id : EnumerationId) e, enumerations[id]? = some e → e.Kindred m g) :
    Kindred m { g with enumerations } :=
  ⟨kindred.types, kindred.references,
    fun id e there => ⟨(fine id e there).target, (fine id e there).elements⟩⟩

/-- Only one more reference is kept, and it is to kin. -/
theorem Kindred.of_reference (kindred : g.Kindred m) {name : String} {built : Built}
    (kin : ∀ x ∈ built.members, g.Kin m (some id) x) :
    Kindred m { g with resources := g.resources.modify id fun r =>
      { r with references := Keyed.put r.references name built } } := by
  have change : Change Act.anyCall g { g with resources := g.resources.modify id fun r =>
      { r with references := Keyed.put r.references name built } } :=
    Act.changeResource_change (f := fun r => { r with references := Keyed.put r.references name built })
      (fun _ => ⟨rfl, rfl, rfl⟩) id g
  refine ⟨kindred.types, fun other s there entry listed x member => ?_, fun other e there => ?_⟩
  · refine Kin.of_change (g := g) ?_ change
    rw [Array.getElem?_modify] at there
    split at there
    · next same =>
      subst same
      obtain ⟨r, before, rfl⟩ := Option.map_eq_some_iff.mp there
      rcases Keyed.eq_or_mem_of_mem_put listed with rfl | old
      · exact kin x member
      · exact kindred.references id r before entry old x member
    · exact kindred.references other s there entry listed x member
  · have fine := kindred.enumerations other e there
    exact ⟨fine.target, fun x left => (fine.elements x left).of_change change⟩

end Graph

end Kinship

end ResourceGraph
