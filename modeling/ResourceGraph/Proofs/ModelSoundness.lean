import ResourceGraph.Proofs.PlanSoundness

/-!
Compiled models are well formed. The types of a document are made first and keep their identifiers,
so that what was sound in the scope of the document is sound in the model; the references of the
root that are added last, from the types that at most one identifier tells apart, change nothing but
the operations of the root.
-/

namespace ResourceGraph

open Outcome

/-- What a type of a compiled model keeps: its names are apart, it is closed for changes, and
everything attached to it was made soundly in one scope. -/
structure ResourceType.Sound (scope : Scope) (t : ResourceType) : Prop where
  frozen : t.isFrozen = true
  names : t.NamesApart
  operations : ∀ entry ∈ t.operations, entry.2.Sound scope t.identifiers
  load : ∀ o, t.load = some o → o.Sound scope t.identifiers ∧ o.kind = .load

/-- The model was made in a scope, whose types it has at their places with the same identifiers. -/
structure Model.Sound (scope : Scope) (m : Model) : Prop where
  root : m.root.Sound scope
  rootBare : m.root.identifiers = []
  types : ∀ entry ∈ m.types, entry.2.Sound scope
  named : ∀ entry ∈ m.types, entry.2.name = entry.1
  located : ∀ entry ∈ scope, ∃ type,
    m.types[entry.2.ref.index]? = some (entry.2.ref.name, type) ∧ type.identifiers = entry.2.identifiers

/-- The operation of every `hasOne` rule is there, and its builder gives one resource. -/
def ResourceType.HasSingle (t : ResourceType) (rules : ContainerRules) : Prop :=
  ∀ entry ∈ rules.hasOne, ∃ o b,
    (Naming.snakeCase entry.1, o) ∈ t.operations ∧ o.work = .reference b ∧ b.isPlural = false

namespace Model

variable {d : Document} {factory : Option Nat} {bares : Keyed ResourceType}

/-- The bare types stand at the places of their rules, under their names. -/
theorem of_bareTypes (made : bareTypes d factory = .ok bares) (index : Nat) :
    (∀ entry, bares[index]? = some entry → ∃ rules, d.resources[index]? = some (entry.1, rules) ∧
        ResourceType.make entry.1 (rules.identifiers.map Naming.snakeCase) factory = .ok entry.2) ∧
      ∀ name rules, d.resources[index]? = some (name, rules) → ∃ t, bares[index]? = some (name, t) := by
  obtain ⟨written, kept⟩ := getElem_of_mapM made index
  constructor
  · intro entry there
    obtain ⟨⟨name, rules⟩, listed, one⟩ := written entry there
    obtain ⟨type, typed, one⟩ := bind_ok.mp one
    rw [pure_ok] at one
    subst one
    exact ⟨rules, listed, typed⟩
  · intro name rules listed
    obtain ⟨entry, there, one⟩ := kept _ listed
    obtain ⟨type, typed, one⟩ := bind_ok.mp one
    rw [pure_ok] at one
    subst one
    exact ⟨type, there⟩

theorem getElem?_scopeOf (bares : Keyed ResourceType) (index : Nat) :
    (scopeOf bares)[index]? =
      bares[index]?.map fun entry => (entry.1, ⟨⟨index, entry.1⟩, entry.2.identifiers⟩) := by
  simp [scopeOf, List.getElem?_zipIdx, Option.map_map, Function.comp_def]

theorem placed_scopeOf (bares : Keyed ResourceType) : (scopeOf bares).Placed := by
  intro index entry found
  rw [getElem?_scopeOf] at found
  obtain ⟨type, _, rfl⟩ := Option.map_eq_some_iff.mp found
  rfl

end Model

namespace Draft

variable {scope : Scope}

/-- What a bare type has become when steps were taken: everything attached to it is sound, and every
operation that a step attaches at its site is there. -/
structure Grown (scope : Scope) (steps : List Step) (site : Site) (t u : ResourceType) : Prop where
  name : u.name = t.name
  identifiers : u.identifiers = t.identifiers
  names : u.NamesApart
  operations : ∀ entry ∈ u.operations, entry.2.Sound scope t.identifiers
  load : ∀ o, u.load = some o → o.Sound scope t.identifiers ∧ o.kind = .load
  attached : ∀ step ∈ steps, step.site = site → ∀ name o, step.attachment = .ok (.operation name o) →
    (name, o) ∈ u.operations

private theorem grown_of_steps {steps : List Step} {d e : Draft} {site : Site} {t : ResourceType}
    (sound : ∀ step ∈ steps, step.Sound scope) (ran : steps.foldlM Draft.take d = .ok e)
    (there : d.typeAt? site = some t) (apart : t.NamesApart) (bare : t.operations = [])
    (unset : t.load = none)
    (declares : ∀ declared, scope.Declares site declared → declared = t.identifiers) :
    ∃ u, e.typeAt? site = some u ∧ Grown scope steps site t u := by
  obtain ⟨_, _, final⟩ := of_steps ran
  obtain ⟨u, last, run⟩ := final site t there
  obtain ⟨name, identifiers, named, operations, loads⟩ := ResourceType.of_attachments apart run
  have made : ∀ a ∈ Plan.attachedAt site steps, a.Sound scope t.identifiers := by
    intro a member
    obtain ⟨step, listed, taken⟩ := List.mem_filterMap.mp member
    split at taken
    · next own =>
      cases attached : step.attachment with
      | error fault => simp [attached, Except.toOption] at taken
      | ok b =>
        rw [attached] at taken
        cases taken
        obtain ⟨declared, here, fits⟩ := sound step listed _ attached
        rw [own] at here
        exact declares declared here ▸ fits
    · cases taken
  rw [bare, List.nil_append] at operations
  refine ⟨u, last, name, identifiers, named, ?_, ?_, ?_⟩
  · intro entry member
    rw [operations] at member
    obtain ⟨a, listed, taken⟩ := List.mem_filterMap.mp member
    cases a with
    | load o => cases taken
    | operation label o =>
      cases taken
      exact made _ listed
  · intro o set
    rcases loads o set with given | attached
    · rw [unset] at given
      cases given
    · exact made _ attached
  · intro step listed own label o attached
    rw [operations]
    refine List.mem_filterMap.mpr ⟨.operation label o, List.mem_filterMap.mpr ⟨step, listed, ?_⟩, rfl⟩
    simp [own, attached, Except.toOption]

/-- Where the rules of a container were carried out, its `hasOne` rules are references to one
resource. -/
theorem Grown.hasSingle {steps : List Step} {site : Site} {t u : ResourceType} {owner : Owner}
    {rules : ContainerRules} (grown : Grown scope steps site t u)
    (possible : ∀ step ∈ steps, ∃ a, step.attachment = .ok a) (declared : rules.Declared)
    (own : owner.site = site) (carried : ∀ step ∈ Plan.container scope owner rules, step ∈ steps) :
    u.HasSingle rules := by
  intro entry listed
  have member : Plan.hasOne scope owner entry.1 entry.2 ∈ Plan.container scope owner rules :=
    List.mem_append_right _ (List.mem_map.mpr ⟨entry, listed, rfl⟩)
  obtain ⟨a, attached⟩ := possible _ (carried _ member)
  obtain ⟨o, rfl, _, b, work, single⟩ := Plan.hasOne_made (declared.hasOne entry listed) attached
  exact ⟨o, b, grown.attached _ (carried _ member) own _ o attached, work, single⟩

/-- A type that has grown soundly is sound when it is closed. -/
theorem Grown.sound_freeze {steps : List Step} {site : Site} {t u : ResourceType}
    (grown : Grown scope steps site t u) : u.freeze.Sound scope :=
  ⟨rfl, ⟨grown.names.identifiers, grown.names.unreserved, grown.names.operations, grown.names.free⟩,
    fun entry member => grown.identifiers ▸ grown.operations entry member,
    fun o set => grown.identifiers ▸ grown.load o set⟩

/-- Exposing a type changes the root at most by a sound reference. -/
theorem of_expose {d e : Draft} {name : String} {type : TypeSignature}
    (there : (name, type) ∈ scope) (exposed : d.expose type = .ok e) :
    e = d ∨ ∃ o : Operation, o.Sound scope d.root.identifiers ∧ e.types = d.types ∧
      d.root.addOperation (Naming.snakeCase type.ref.name) o = .ok e.root := by
  unfold expose at exposed
  dsimp only at exposed
  split at exposed
  · exact .inl (pure_ok.mp exposed).symm
  · obtain ⟨o, made, exposed⟩ := bind_ok.mp exposed
    obtain ⟨root, added, exposed⟩ := bind_ok.mp exposed
    rw [pure_ok] at exposed
    subst exposed
    exact .inr ⟨o, Plan.related_sound [] there (by simp) made, rfl, added⟩

/-- What exposing types leaves of the draft. -/
structure Exposing (scope : Scope) (d e : Draft) : Prop where
  types : e.types = d.types
  identifiers : e.root.identifiers = d.root.identifiers
  load : e.root.load = d.root.load
  names : e.root.NamesApart
  operations : ∀ entry ∈ e.root.operations, entry.2.Sound scope d.root.identifiers
  kept : ∀ entry ∈ d.root.operations, entry ∈ e.root.operations

private theorem exposing {types : List TypeSignature} {d e : Draft}
    (there : ∀ type ∈ types, ∃ name, (name, type) ∈ scope) (apart : d.root.NamesApart)
    (sound : ∀ entry ∈ d.root.operations, entry.2.Sound scope d.root.identifiers)
    (ran : types.foldlM Draft.expose d = .ok e) : Exposing scope d e := by
  refine foldlM_keeps (Exposing scope d) (fun type member s t before exposed => ?_)
    ⟨rfl, rfl, rfl, apart, sound, fun _ member => member⟩ ran
  obtain ⟨name, inside⟩ := there type member
  rcases of_expose inside exposed with rfl | ⟨o, made, same, added⟩
  · exact before
  · have named := ResourceType.namesApart_addOperation before.names added
    obtain ⟨whole, _⟩ := ResourceType.of_addOperation added
    refine ⟨same.trans before.types, ?_, ?_, named, ?_, ?_⟩
    · rw [whole]
      exact before.identifiers
    · rw [whole]
      exact before.load
    · intro entry listed
      rw [whole] at listed
      rcases List.mem_append.mp listed with old | new
      · exact before.operations entry old
      · rw [List.mem_singleton.mp new]
        exact before.identifiers ▸ made
    · intro entry listed
      rw [whole]
      exact List.mem_append_left _ (before.kept entry listed)

theorem Exposing.hasSingle {d e : Draft} {rules : ContainerRules} (after : Exposing scope d e)
    (single : d.root.HasSingle rules) : e.root.HasSingle rules := by
  intro entry listed
  obtain ⟨o, b, there, rest⟩ := single entry listed
  exact ⟨o, b, after.kept _ there, rest⟩

end Draft

namespace Model

variable {d : Document} {factory : Option Nat} {bares : Keyed ResourceType}

/-- The types of a document as steps leave them, at their places and under their names. -/
theorem grown_of_bareTypes {root : ResourceType} {steps : List Step} {planned : Draft}
    (bare : bareTypes d factory = .ok bares) (sound : ∀ step ∈ steps, step.Sound (scopeOf bares))
    (ran : steps.foldlM Draft.take ⟨root, bares⟩ = .ok planned) {index : Nat}
    {entry : String × ResourceType} (there : bares[index]? = some entry) :
    entry.2.name = entry.1 ∧ ∃ u, planned.types[index]? = some (entry.1, u) ∧
      Draft.Grown (scopeOf bares) steps (.resource index) entry.2 u := by
  obtain ⟨rules, _, made⟩ := (of_bareTypes bare index).1 entry there
  obtain ⟨name, identifiers, none, unset, apart, _⟩ := ResourceType.of_make made
  refine ⟨name, ?_⟩
  have here : (Draft.mk root bares).typeAt? (.resource index) = some entry.2 := by
    simp [Draft.typeAt?, there]
  obtain ⟨u, last, grown⟩ := Draft.grown_of_steps sound ran here apart none unset (by
    rintro declared ⟨_, found, same⟩
    rw [getElem?_scopeOf, there] at found
    cases found
    exact same.symm)
  obtain ⟨⟨label, v⟩, found, same⟩ := Option.map_eq_some_iff.mp last
  dsimp only at same
  subst same
  have labels : label = entry.1 := by
    have names := congrArg (·[index]?) (Draft.of_steps ran).2.1
    simpa [Keyed.keys, found, there] using names
  exact ⟨v, labels ▸ found, grown⟩

/-- The root before anything is attached to it. -/
theorem names_bareRoot (service : String) (factory : Option Nat) :
    ResourceType.NamesApart { name := service, factory } := by
  constructor <;> simp [ResourceType.operationNames, Keyed.keys]

/-- How a document was compiled: its bare types, what the plan made of them, and the draft on whose
root the types were exposed. -/
structure Compiled (d : Document) (service : String) (factory : Option Nat) (bares : Keyed ResourceType)
    (planned exposed : Draft) : Prop where
  bare : bareTypes d factory = .ok bares
  ran : (Plan.ofDocument d service (scopeOf bares)).foldlM Draft.take
    ⟨{ name := service, factory }, bares⟩ = .ok planned
  shown : ((scopeOf bares).map Prod.snd).foldlM Draft.expose planned = .ok exposed

theorem compiled_of_document {service : String} {m : Model}
    (made : ofDocument d service factory = .ok m) :
    ∃ bares planned exposed, Compiled d service factory bares planned exposed ∧
      m = ⟨service, exposed.root.freeze, exposed.types.map fun (name, type) => (name, type.freeze)⟩ := by
  obtain ⟨bares, bare, made⟩ := bind_ok.mp made
  obtain ⟨planned, ran, made⟩ := bind_ok.mp made
  obtain ⟨exposed, shown, made⟩ := bind_ok.mp made
  exact ⟨bares, planned, exposed, ⟨bare, ran, shown⟩, (pure_ok.mp made).symm⟩

namespace Compiled

variable {service : String} {planned exposed : Draft}

theorem possible (c : Compiled d service factory bares planned exposed) :
    ∀ step ∈ Plan.ofDocument d service (scopeOf bares), ∃ a, step.attachment = .ok a :=
  (Draft.of_steps c.ran).1

private theorem steps_sound (c : Compiled d service factory bares planned exposed)
    (declared : d.Declared) :
    ∀ step ∈ Plan.ofDocument d service (scopeOf bares), step.Sound (scopeOf bares) :=
  Plan.ofDocument_sound (placed_scopeOf bares) declared c.possible

theorem grownRoot (c : Compiled d service factory bares planned exposed) (declared : d.Declared) :
    Draft.Grown (scopeOf bares) (Plan.ofDocument d service (scopeOf bares)) .root
      { name := service, factory } planned.root := by
  have here : (Draft.mk { name := service, factory } bares).typeAt? .root =
    some { name := service, factory } := rfl
  obtain ⟨root, last, grown⟩ := Draft.grown_of_steps (c.steps_sound declared) c.ran here
    (names_bareRoot service factory) rfl rfl (fun _ same => same)
  cases last
  exact grown

theorem exposing (c : Compiled d service factory bares planned exposed) (declared : d.Declared) :
    Draft.Exposing (scopeOf bares) planned exposed := by
  have grown := c.grownRoot declared
  refine Draft.exposing (fun type member => ?_) grown.names ?_ c.shown
  · obtain ⟨⟨name, _⟩, entry, rfl⟩ := List.mem_map.mp member
    exact ⟨name, entry⟩
  · rw [grown.identifiers]
    exact grown.operations

/-- Every type stands at the place of its rules, as the plan left it. -/
theorem grown (c : Compiled d service factory bares planned exposed) (declared : d.Declared)
    {index : Nat} {entry : String × ResourceType} (there : bares[index]? = some entry) :
    entry.2.name = entry.1 ∧ ∃ u, exposed.types[index]? = some (entry.1, u) ∧
      Draft.Grown (scopeOf bares) (Plan.ofDocument d service (scopeOf bares)) (.resource index)
        entry.2 u := by
  rw [(c.exposing declared).types]
  exact grown_of_bareTypes c.bare (c.steps_sound declared) c.ran there

/-- Every type at the end was there at the start. -/
theorem of_exposed (c : Compiled d service factory bares planned exposed) (declared : d.Declared)
    {entry : String × ResourceType} (member : entry ∈ exposed.types) :
    ∃ (index : Nat) (t : ResourceType),
      bares[index]? = some (entry.1, t) ∧ exposed.types[index]? = some entry := by
  obtain ⟨index, found⟩ := List.mem_iff_getElem?.mp member
  have same := congrArg (·[index]?) (Draft.of_steps c.ran).2.1
  rw [← (c.exposing declared).types] at same
  simp only [Keyed.keys, List.getElem?_map, found, Option.map_some] at same
  obtain ⟨⟨name, t⟩, there, label⟩ := Option.map_eq_some_iff.mp same.symm
  exact ⟨index, t, by rw [there, ← label], found⟩

private theorem root_sound (c : Compiled d service factory bares planned exposed)
    (declared : d.Declared) :
    exposed.root.freeze.Sound (scopeOf bares) ∧ exposed.root.freeze.identifiers = [] := by
  have grown := c.grownRoot declared
  have after := c.exposing declared
  have none : exposed.root.identifiers = [] := after.identifiers.trans grown.identifiers
  refine ⟨⟨rfl, ?_, ?_, ?_⟩, none⟩
  · exact ⟨after.names.identifiers, after.names.unreserved, after.names.operations, after.names.free⟩
  · exact fun entry member => after.identifiers ▸ after.operations entry member
  · exact fun o set => none ▸ grown.load o (after.load ▸ set)

end Compiled

/-- **Compiling gives a sound model**, in the scope of the types that the document names. Each
`hasOne` rule of the service and of the types is there as a reference to one resource. -/
theorem sound_of_document {service : String} {m : Model}
    (declared : d.Declared) (made : ofDocument d service factory = .ok m) :
    ∃ scope, m.Sound scope ∧ m.root.HasSingle d.service ∧
      ∀ (index : Nat) name rules, d.resources[index]? = some (name, rules) →
        ∃ t, m.types[index]? = some (name, t) ∧ t.HasSingle rules.container := by
  obtain ⟨bares, planned, exposed, c, rfl⟩ := compiled_of_document made
  obtain ⟨root, rootBare⟩ := c.root_sound declared
  have types : ∀ entry ∈ exposed.types.map fun (name, type) => (name, type.freeze),
      entry.2.Sound (scopeOf bares) ∧ entry.2.name = entry.1 := by
    intro entry member
    obtain ⟨last, listed, rfl⟩ := List.mem_map.mp member
    obtain ⟨index, t, there, found⟩ := c.of_exposed declared listed
    obtain ⟨name, u, again, made⟩ := c.grown declared there
    rw [found, Option.some.injEq] at again
    rw [again]
    exact ⟨made.sound_freeze, made.name.trans name⟩
  refine ⟨scopeOf bares, ⟨root, rootBare, fun entry member => (types entry member).1,
    fun entry member => (types entry member).2, ?_⟩, ?_, ?_⟩
  · intro entry member
    obtain ⟨index, found⟩ := List.mem_iff_getElem?.mp member
    rw [getElem?_scopeOf] at found
    obtain ⟨t, there, rfl⟩ := Option.map_eq_some_iff.mp found
    obtain ⟨_, u, last, made⟩ := c.grown declared there
    exact ⟨u.freeze, by simp [last], made.identifiers⟩
  · exact (c.exposing declared).hasSingle ((c.grownRoot declared).hasSingle c.possible declared.service
      rfl fun step => Plan.mem_of_service)
  · intro index name rules written
    obtain ⟨t, there⟩ := (of_bareTypes c.bare index).2 name rules written
    obtain ⟨_, u, last, made⟩ := c.grown declared there
    have inScope : (scopeOf bares)[index]? = some (name, ⟨⟨index, name⟩, t.identifiers⟩) := by
      simp [getElem?_scopeOf, there]
    have single := made.hasSingle c.possible (declared.resources _ (List.mem_of_getElem? written)) rfl
      fun step => Plan.mem_of_resource inScope written
    exact ⟨u.freeze, by simp [last], single⟩

end Model

end ResourceGraph
