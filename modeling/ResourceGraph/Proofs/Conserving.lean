import ResourceGraph.Proofs.DataLaw
import ResourceGraph.Proofs.Fanout
import ResourceGraph.Proofs.Mirroring
import ResourceGraph.Proofs.Paging

/-!
What an invocation leaves of a graph once the parameters are built. Calls add to the store, searches
keep what expressions write out, and building adds resources; where the data of the caller is there,
nothing is loaded for it. So whatever was there stays: what the store keeps, and what resources are
identified by and hold.
-/

namespace ResourceGraph

open ResourceGraph.Graph ResourceGraph.Store

/-- The second graph has all that the first one has: what its store keeps, the expressions that were
read, and every resource with its identifiers and, if there is some, its data. -/
structure Graph.Conserves (g h : Graph) : Prop where
  store : g.store.Extends h.store
  learns : g.store.Learns h.store
  resources : ∀ (id : ResourceId) r, g.resources[id]? = some r →
    ∃ s, h.resources[id]? = some s ∧ s.identifiers = r.identifiers ∧ ∀ v, r.data = some v →
      s.data = some v

namespace Graph

variable {g h : Graph} {id : ResourceId} {I : Graph → Prop}

theorem conserves_lasting : Lasting Conserves where
  refl g := ⟨extends_lasting.refl g.store, learns_lasting.refl g.store,
    fun _ r there => ⟨r, there, rfl, fun _ held => held⟩⟩
  trans first second := by
    refine ⟨extends_lasting.trans first.store second.store,
      learns_lasting.trans first.learns second.learns,
      fun id r there => ?_⟩
    obtain ⟨s, still, same, kept⟩ := first.resources id r there
    obtain ⟨u, last, again, further⟩ := second.resources id s still
    exact ⟨u, last, again.trans same, fun v held => further v (kept v held)⟩

private theorem conserves_of_store {s : Store} (extends' : g.store.Extends s)
    (learns : g.store.Learns s) :
    g.Conserves { g with store := s } :=
  ⟨extends', learns, fun _ r there => ⟨r, there, rfl, fun _ held => held⟩⟩

theorem conserves_of_same (store : h.store = g.store) (resources : h.resources = g.resources) :
    g.Conserves h := by
  refine ⟨?_, ?_, fun _ r there => ⟨r, resources ▸ there, rfl, fun _ held => held⟩⟩
  · rw [store]
    exact extends_lasting.refl g.store
  · rw [store]
    exact learns_lasting.refl g.store

private theorem conserves_push (g : Graph) (r : Resource) :
    g.Conserves { g with resources := g.resources.push r } := by
  refine ⟨extends_lasting.refl g.store, learns_lasting.refl g.store,
    fun id s there => ⟨s, ?_, rfl, fun _ held => held⟩⟩
  exact (Array.getElem?_push_lt (Array.getElem?_eq_some_iff.mp there).1).trans
    ((Array.getElem?_eq_getElem _).symm.trans there)

/-- To set data where there is none leaves all that there was. -/
theorem conserves_withData (absent : ∀ r, g.resources[id]? = some r → r.data = none) (v : Datum) :
    g.Conserves (g.withData id v) := by
  refine ⟨extends_lasting.refl g.store, learns_lasting.refl g.store, fun other r there => ?_⟩
  change ∃ s, (g.resources.modify id fun r => { r with data := some v })[other]? = some s ∧ _
  rw [Array.getElem?_modify, there]
  split
  · next same =>
    subst same
    refine ⟨_, rfl, rfl, fun w held => ?_⟩
    rw [absent r there] at held
    cases held
  · exact ⟨r, rfl, rfl, fun _ held => held⟩

theorem Conserves.held {v : Datum} (conserves : g.Conserves h) (held : g.held id = some v) :
    h.held id = some v := by
  obtain ⟨r, there, has⟩ := Option.bind_eq_some_iff.mp held
  obtain ⟨s, still, -, kept⟩ := conserves.resources id r there
  exact (held_of_there still).trans (kept v has)

/-- A property under which the resource has data, and which stays as long as all is conserved and no
enumeration goes on. -/
structure Attends (id : ResourceId) (I : Graph → Prop) : Prop where
  held : ∀ g, I g → ∃ v, g.held id = some v
  still : ∀ g h, I g → g.Conserves h → h.enumerations = g.enumerations → I h

/-- Where the property holds, all is conserved, the property with it. -/
def ConservesWhere (I : Graph → Prop) (g h : Graph) : Prop := I g → g.Conserves h ∧ I h

theorem conservesWhere_lasting (I : Graph → Prop) : Lasting (ConservesWhere I) where
  refl g holds := ⟨conserves_lasting.refl g, holds⟩
  trans first second holds := by
    obtain ⟨kept, still⟩ := first holds
    obtain ⟨further, last⟩ := second still
    exact ⟨conserves_lasting.trans kept further, last⟩

theorem Attends.conserves (attends : Attends id I) (conserves : g.Conserves h)
    (same : h.enumerations = g.enumerations) : ConservesWhere I g h :=
  fun holds => ⟨conserves, attends.still g h holds conserves same⟩

end Graph

namespace Act

variable {g h : Graph} {id : ResourceId} {I : Graph → Prop} (attends : Attends id I)

include attends

theorem asking_conserves : Asking (ConservesWhere I) where
  lasting := conservesWhere_lasting I
  adds _ _ adds := attends.conserves (conserves_of_store adds.extends adds.learns) rfl
  notes _ _ _ := attends.conserves (conserves_of_same rfl rfl) rfl
  replaces _ _ _ _ _ _ := attends.conserves (conserves_of_same rfl rfl) rfl
  searches path v g :=
    attends.conserves
      (conserves_of_store (search_extends path v g.store) (Path.search_learns path v g.store)) rfl

/-- Data that is there is read as it is. -/
theorem data_conserves : Keeps (ConservesWhere I) (data id) := by
  intro g holds
  obtain ⟨v, held⟩ := attends.held g holds
  rw [runIn_data_held held]
  exact ⟨conserves_lasting.refl g, holds⟩

private theorem making_conserves : Making (ConservesWhere I) where
  lasting := conservesWhere_lasting I
  adds g r _ := attends.conserves (conserves_push g r) rfl

/-- A resource that was just made has no data yet, so that setting it changes none. -/
theorem buildOne_conserves (b : Builder) (context : Context) (values : Keyed Datum) :
    Keeps (ConservesWhere I) (buildOne b context values) := by
  have lasting := conservesWhere_lasting I
  refine .bind lasting ((callerOf_looks _).keeps lasting) fun caller => ?_
  refine .bindAfter lasting (construct_makes (making_conserves attends) _ _ _ _ _)
    fun g made mid constructed => ?_
  obtain ⟨r, -, -, -, -, empty, rfl, rfl⟩ := construct_gives constructed
  split
  · next v _ =>
    refine attends.conserves (conserves_withData (fun s there => ?_) v) rfl
    rw [Array.getElem?_push_size] at there
    cases there
    exact empty
  · exact lasting.refl _

theorem build_conserves (context : Context) (called : context.caller = some id) (b : Builder) :
    Keeps (ConservesWhere I) (build b context) := by
  have asking := asking_conserves attends
  refine build_keeps asking.lasting asking.searches (fun other same => ?_) b
    (buildOne_conserves attends b context) fun g => ?_
  · obtain rfl := Option.some.inj (called.symm.trans same)
    exact data_conserves attends
  · exact attends.conserves (conserves_of_same (g := g) rfl rfl) rfl

private theorem harvestPage_conserves {context : Context} (called : context.caller = some id)
    (harvest : Harvest) (page : Response) :
    Keeps (ConservesWhere I) (harvestPage harvest context page) :=
  harvestPage_keeps (conservesWhere_lasting I) (asking_conserves attends).searches harvest context page
    fun b => build_conserves attends { context with response := some page } called b

theorem seek_conserves {context : Context} (called : context.caller = some id) (harvest : Harvest)
    (limit : Nat) (p : Paging) :
    Keeps (ConservesWhere I) (seek harvest context limit p) :=
  seek_keeps (conservesWhere_lasting I) (nextPage_keeps (asking_conserves attends)) harvest context
    (harvestPage_conserves attends called harvest) limit p

end Act

end ResourceGraph
