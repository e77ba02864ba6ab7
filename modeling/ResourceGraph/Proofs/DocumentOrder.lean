import ResourceGraph.Proofs.DraftView

/-!
The order of entries in a document does not matter for what can be seen of the model. The bare types
look the same, the steps of the plan are the same in another order, and so are the types that are
exposed at the root, among which no two compete for a name.
-/

namespace ResourceGraph

open Naming Outcome

/-- No two types that at most one identifier tells apart have one name at the root. -/
def Document.RootNamesApart (d : Document) : Prop :=
  d.resources.Pairwise fun entry other =>
    ¬ (entry.2.identifiers.length < 2 ∧ other.2.identifiers.length < 2 ∧
      snakeCase entry.1 = snakeCase other.1)

/-- A type with its identifiers and nothing attached, as it can be seen. -/
def ResourceRules.bareView (rules : ResourceRules) (name : String) : TypeView where
  name := name
  identifiers := rules.identifiers.map snakeCase

namespace Model

variable {d d' : Document} {service : String} {factory : Option Nat} {bares bares' : Keyed ResourceType}

/-! ## Bare types -/

private theorem view_of_bareTypes (made : bareTypes d factory = .ok bares) (name : String) :
    (Keyed.get? bares name).map ResourceType.view =
      (Keyed.get? d.resources name).map fun rules => rules.bareView name := by
  have entries := map_eq_of_mapM (g := fun entry : String × ResourceType => (entry.1, entry.2.view))
    (h := fun entry => (entry.1, entry.2.bareView entry.1)) made fun entry type one => by
      obtain ⟨t, typed, one⟩ := bind_ok.mp one
      rw [pure_ok] at one
      subst one
      obtain ⟨named, identifiers, bare, unset, _⟩ := ResourceType.of_make typed
      simp [ResourceType.view, ResourceRules.bareView, named, identifiers, bare, unset, Keyed.get?]
  have found := congrArg (Keyed.get? · name) entries
  simpa only [Keyed.get?_map bares fun _ t => t.view,
    Keyed.get?_map d.resources fun name rules => rules.bareView name] using found

/-- The bare types of a document can be made where each of them can. -/
theorem bareTypes_iff :
    (∃ bares, bareTypes d factory = .ok bares) ↔
      ∀ entry ∈ d.resources, ∃ t,
        ResourceType.make entry.1 (entry.2.identifiers.map snakeCase) factory = .ok t := by
  constructor
  · rintro ⟨bares, made⟩ ⟨name, rules⟩ member
    obtain ⟨index, there⟩ := List.mem_iff_getElem?.mp member
    obtain ⟨_, _, one⟩ := (getElem_of_mapM made index).2 _ there
    obtain ⟨t, typed, _⟩ := bind_ok.mp one
    exact ⟨t, typed⟩
  · intro each
    cases made : bareTypes d factory with
    | ok bares => exact ⟨bares, rfl⟩
    | error fault =>
      obtain ⟨⟨name, rules⟩, member, failed⟩ := error_of_mapM made
      obtain ⟨t, typed⟩ := each _ member
      dsimp only at typed failed
      rw [typed] at failed
      cases failed

/-- Where the bare types of a document can be made, so can those of a document with its entries in
another order. -/
theorem bareTypes_shuffled (shuffles : d.Shuffles d') (factory : Option Nat) :
    (∃ bares, bareTypes d factory = .ok bares) ↔ ∃ bares', bareTypes d' factory = .ok bares' := by
  rw [bareTypes_iff, bareTypes_iff]
  exact shuffles.resources.forall_iff fun x y ⟨names, rules⟩ => by rw [names, rules.identifiers]

/-! ## One run, as it can be seen -/

/-- What can be seen of a model while nothing is attached yet. -/
def bareView (d : Document) (service : String) : ModelView where
  root := { name := service, identifiers := [] }
  types name := (Keyed.get? d.resources name).map fun rules => rules.bareView name

private theorem keys_scopeOf (bares : Keyed ResourceType) :
    Keyed.keys (scopeOf bares) = Keyed.keys bares := by
  have fronts : (scopeOf bares).map Prod.fst = (bares.zipIdx.map Prod.fst).map Prod.fst := by
    rw [scopeOf, List.map_map, List.map_map]
    rfl
  rw [Keyed.keys, Keyed.keys, fronts, List.zipIdx_map_fst]

private theorem loose_of_make {name : String} {identifiers : List String} {t : ResourceType}
    (made : ResourceType.make name identifiers factory = .ok t) : t.isFrozen = false := by
  refine foldlM_keeps (fun t : ResourceType => t.isFrozen = false)
    (fun _ _ s u loose added => ?_) rfl made
  obtain ⟨rfl, _⟩ := ResourceType.of_addIdentifier added
  exact loose

private theorem bare_ready (made : bareTypes d factory = .ok bares) :
    Draft.Ready (scopeOf bares) ⟨{ name := service, factory }, bares⟩ where
  names := (keys_scopeOf bares).symm
  root := rfl
  types entry member := by
    obtain ⟨index, there⟩ := List.mem_iff_getElem?.mp member
    obtain ⟨_, _, typed⟩ := (of_bareTypes made index).1 entry there
    exact loose_of_make typed

/-- Closing types for changes does not change what can be seen of them. -/
theorem view_freeze (name : String) (root : ResourceType) (types : Keyed ResourceType) :
    view ⟨name, root.freeze, types.map fun (name, type) => (name, type.freeze)⟩ = .of root types := by
  unfold view ModelView.of
  congr 1
  funext label
  dsimp only
  rw [Keyed.get?_map types fun _ t => t.freeze, Option.map_map]
  rfl

/-- What can be seen of a compiled document: the steps of its plan are taken and its types exposed,
from bare types on. -/
theorem view_ofDocument (made : bareTypes d factory = .ok bares)
    (distinct : (Keyed.keys d.resources).Nodup) :
    (ofDocument d service factory).toOption.map view =
      (((Plan.ofDocument d service (scopeOf bares)).map (Step.view (scopeOf bares))).foldlM
        ModelView.take
        (bareView d service)).bind fun v =>
          (((scopeOf bares).map Prod.snd).map TypeSignature.exposure).foldlM ModelView.expose v := by
  have same : Scope.Of d (scopeOf bares) := scope_of_bareTypes made
  have apart : (Keyed.keys (scopeOf bares)).Nodup := same.keys ▸ distinct
  have ready : Draft.Ready (scopeOf bares) ⟨{ name := service, factory }, bares⟩ := bare_ready made
  have start : Draft.view ⟨{ name := service, factory }, bares⟩ = bareView d service :=
    congrArg (ModelView.mk _) (funext (view_of_bareTypes made))
  have taken := Draft.view_takes ready apart
    (Plan.within_ofDocument d service (placed_scopeOf bares))
  rw [start] at taken
  rw [← taken]
  unfold ofDocument
  rw [made]
  dsimp only [bind, Except.bind]
  cases ran : (Plan.ofDocument d service (scopeOf bares)).foldlM Draft.take
      ⟨{ name := service, factory }, bares⟩ with
  | error fault => rfl
  | ok planned =>
    have shown := Draft.view_exposes (Draft.ready_of_takes ready ran) apart
      ((scopeOf bares).map Prod.snd)
    refine Eq.trans ?_ shown
    dsimp only
    cases ((scopeOf bares).map Prod.snd).foldlM Draft.expose planned with
    | error fault => rfl
    | ok exposed => exact congrArg some (view_freeze service exposed.root exposed.types)

/-! ## Two runs -/

private theorem bareView_shuffled (shuffles : d.Shuffles d')
    (distinct : (Keyed.keys d.resources).Nodup) :
    bareView d service = bareView d' service := by
  refine congrArg (ModelView.mk _) (funext fun name => ?_)
  refine map_eq_of_rel (Keyed.get?_shuffled shuffles.resources distinct name) fun rules rules' both => ?_
  rw [ResourceRules.bareView, ResourceRules.bareView, both.identifiers]

/-- The types that are exposed do not compete for names. -/
theorem exposures_apart {scope : Scope} (same : Scope.Of d scope) (apart : d.RootNamesApart) :
    ((scope.map Prod.snd).map TypeSignature.exposure).Pairwise fun e f => ¬ e.Meets f := by
  have declared : (d.resources.map fun entry => (entry.1, entry.2.identifiers.map snakeCase)).Pairwise
      fun x y => ¬ (x.2.length < 2 ∧ y.2.length < 2 ∧ snakeCase x.1 = snakeCase y.1) := by
    simpa [List.pairwise_map, Document.RootNamesApart] using apart
  rw [← same.signatures, List.pairwise_map] at declared
  exact List.pairwise_map.mpr declared

/-- The same types are exposed, in another order. -/
theorem exposures_shuffled {scope scope' : Scope} (same : Scope.Of d scope) (same' : Scope.Of d' scope')
    (sides : Shuffled (Plan.SameSide scope scope') ((scope.map Prod.snd).zip (d.resources.map Prod.snd))
      ((scope'.map Prod.snd).zip (d'.resources.map Prod.snd))) :
    ((scope.map Prod.snd).map TypeSignature.exposure).Perm
      ((scope'.map Prod.snd).map TypeSignature.exposure) := by
  have types : ∀ {d : Document} {scope : Scope}, Scope.Of d scope →
      ((scope.map Prod.snd).zip (d.resources.map Prod.snd)).map Prod.fst = scope.map Prod.snd := by
    intro d scope same
    have lengths := congrArg List.length same.entries
    simp only [List.length_map] at lengths
    exact List.map_fst_zip (by simp [lengths])
  rw [← types same, ← types same', List.map_map, List.map_map]
  exact sides.map fun x y ⟨stands, _⟩ => TypeSignature.Like.exposure stands.owners

/-- **The order of entries does not matter.** Documents that differ in it both compile or neither
does, and the models look the same. -/
theorem view_shuffled (shuffles : d.Shuffles d') (distinct : (Keyed.keys d.resources).Nodup)
    (apart : d.RootNamesApart) (service : String) (factory : Option Nat) :
    (ofDocument d service factory).toOption.map view =
      (ofDocument d' service factory).toOption.map view := by
  have both := bareTypes_shuffled shuffles factory
  have distinct' : (Keyed.keys d'.resources).Nodup :=
    (Keyed.keys_perm shuffles.resources).nodup_iff.mp distinct
  cases made : bareTypes d factory with
  | error fault =>
    cases made' : bareTypes d' factory with
    | error fault' =>
      unfold ofDocument
      rw [made, made']
      rfl
    | ok bares' =>
      obtain ⟨bares, made_⟩ := both.mpr ⟨bares', made'⟩
      rw [made] at made_
      cases made_
  | ok bares =>
    obtain ⟨bares', made'⟩ := both.mp ⟨bares, made⟩
    have same : Scope.Of d (scopeOf bares) := scope_of_bareTypes made
    have same' : Scope.Of d' (scopeOf bares') := scope_of_bareTypes made'
    have scopes := shuffles.scopes distinct same same'
    have sides := shuffles.sides scopes same same'
    have planned :=
      Plan.ofDocument_shuffled service same.placed same'.placed scopes shuffles.service sides
    rw [view_ofDocument made distinct, view_ofDocument made' distinct',
      bareView_shuffled shuffles distinct, ModelView.takes_perm _ planned]
    congr 1
    funext v
    exact ModelView.exposes_perm v (exposures_shuffled same same' sides) (exposures_apart same apart)

end Model

end ResourceGraph
