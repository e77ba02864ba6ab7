import ResourceGraph.Proofs.DocumentScope
import ResourceGraph.Proofs.Shuffling
import ResourceGraph.Proofs.Views

/-!
Plans of documents that are each other's in another order. Entries of `resources`, and of the maps
of rules in a container, may change places. The steps of the plan then are the same in another
order, as far as can be seen without the places of types.
-/

namespace ResourceGraph

open Naming Outcome

/-- The maps of rules have the same entries. -/
structure ContainerRules.Shuffles (r r' : ContainerRules) : Prop where
  actions : r.actions.Perm r'.actions
  hasMany : r.hasMany.Perm r'.hasMany
  hasSome : r.hasSome.Perm r'.hasSome
  hasOne : r.hasOne.Perm r'.hasOne

/-- The rules of two resources differ in the order of entries only. -/
structure ResourceRules.Shuffles (r r' : ResourceRules) : Prop where
  container : r.container.Shuffles r'.container
  identifiers : r.identifiers = r'.identifiers
  shape : r.shape = r'.shape
  load : r.load = r'.load
  subResources : r.subResources = r'.subResources

/-- The documents differ in the order of entries only. -/
structure Document.Shuffles (d d' : Document) : Prop where
  service : d.service.Shuffles d'.service
  resources : Shuffled (SameKey ResourceRules.Shuffles) d.resources d'.resources

/-- What is attached, as it can be seen. -/
inductive AttachmentView
  | load (operation : OperationView)
  | operation (name : String) (operation : OperationView)
  deriving DecidableEq

/-- A step, with the name of the type it attaches to, or none for the root. -/
structure StepView where
  site : Option String
  attachment : Except Failure AttachmentView

def Attachment.view : Attachment → AttachmentView
  | .load o => .load o.view
  | .operation name o => .operation name o.view

/-- The name of the type at a site; the root has none. -/
def Scope.label (scope : Scope) : Site → Option String
  | .root => none
  | .resource index => scope[index]?.map Prod.fst

def Step.view (scope : Scope) (step : Step) : StepView :=
  ⟨scope.label step.site, step.attachment.map Attachment.view⟩

/-- Two owners of rules that cannot be told apart: they have one name and the same identifiers, in
scopes that have like types under the same names. -/
structure Owner.Stands (scope scope' : Scope) (owner owner' : Owner) : Prop where
  scopes : scope.Like scope'
  owners : owner.Like owner'
  labels : scope.label owner.site = scope'.label owner'.site

namespace Plan

variable {scope scope' : Scope} {owner owner' : Owner}

theorem named_like (labels : scope.label owner.site = scope'.label owner'.site) (name : String)
    {made made' : Except Failure Operation} (same : made.map Operation.view = made'.map Operation.view) :
    (named owner name made).view scope = (named owner' name made').view scope' := by
  unfold Step.view named
  rw [labels]
  rcases cases_of_map_eq same with ⟨fault, rfl, rfl⟩ | ⟨o, o', rfl, rfl, views⟩
  · rfl
  · simp [Except.map, Attachment.view, views]

theorem stop_like (labels : scope.label owner.site = scope'.label owner'.site) (fault : Failure) :
    (stop owner fault).view scope = (stop owner' fault).view scope' := by
  simp [Step.view, stop, labels, Except.map]

private theorem load_like (stands : owner.Stands scope scope' owner') (rule : LoadRule) :
    (load owner rule).view scope = (load owner' rule).view scope' := by
  unfold Step.view load
  rw [stands.labels]
  rcases cases_of_map_eq (Scope.load_like stands.owners rule) with
    ⟨fault, failed, failed'⟩ | ⟨o, o', made, made', views⟩
  · rw [failed, failed']
  · simp [made, made', Except.map, Attachment.view, views]

private theorem singularSteps_like (stands : owner.Stands scope scope' owner')
    {target target' : TypeSignature} (types : target.Like target') (name : String)
    (rule : HasManyRule) :
    (singularSteps owner name target rule).map (Step.view scope) =
      (singularSteps owner' name target' rule).map (Step.view scope') := by
  unfold singularSteps
  split
  · rfl
  · split
    · rw [stands.owners.1, List.map_singleton, List.map_singleton, stop_like stands.labels]
    · simp only [List.map_append, List.map_map]
      refine congrArg₂ (· ++ ·) ?_ ?_
      · exact List.map_congr_left fun create _ =>
          named_like stands.labels _ (Scope.creation_like stands.owners types create)
      · exact List.map_congr_left fun build _ =>
          named_like stands.labels _ (Scope.reference_like stands.owners types name build)

private theorem hasMany_like (stands : owner.Stands scope scope' owner') (name : String)
    (rule : HasManyRule) :
    (hasMany scope owner name rule).map (Step.view scope) =
      (hasMany scope' owner' name rule).map (Step.view scope') := by
  have found := Scope.lookup_like stands.scopes stands.owners name (some rule.type)
  unfold hasMany
  rcases cases_of_map_eq found with ⟨fault, missing, missing'⟩ | ⟨target, target', here, here', same⟩
  · rw [missing, missing']
    exact congrArg (fun step => [step]) (stop_like stands.labels fault)
  · have types : target.Like target' := TypeSignature.like_iff.mpr same
    rw [here, here']
    simp only [List.map_append, List.map_map, singularSteps_like stands types]
    refine congrArg (· ++ _) (List.map_congr_left fun call _ => ?_)
    exact named_like stands.labels _ (Scope.enumeration_like stands.owners types name call)

/-- The steps of a container whose rules change places are the same in another order. -/
theorem container_shuffled (stands : owner.Stands scope scope' owner') {rules rules' : ContainerRules}
    (shuffles : rules.Shuffles rules') :
    ((container scope owner rules).map (Step.view scope)).Perm
      ((container scope' owner' rules').map (Step.view scope')) := by
  have actions : ∀ entry : String × ActionRule,
      (named owner (snakeCase entry.1) (scope.action owner entry.1 entry.2)).view scope =
        (named owner' (snakeCase entry.1) (scope'.action owner' entry.1 entry.2)).view scope' :=
    fun entry => named_like stands.labels _ (Scope.action_like stands.scopes stands.owners _ _)
  have somes : ∀ entry : String × AssociationRule,
      (hasSome scope owner entry.1 entry.2).view scope =
        (hasSome scope' owner' entry.1 entry.2).view scope' := fun entry => by
    refine named_like stands.labels _ (map_bind_eq (Scope.lookup_like stands.scopes stands.owners _ _)
      fun _ _ same => ?_)
    exact Scope.reference_like stands.owners (TypeSignature.like_iff.mpr same) _ _
  have ones : ∀ entry : String × AssociationRule,
      (hasOne scope owner entry.1 entry.2).view scope =
        (hasOne scope' owner' entry.1 entry.2).view scope' := fun entry => by
    refine named_like stands.labels _ (map_bind_eq (Scope.lookup_like stands.scopes stands.owners _ _)
      fun _ _ same => ?_)
    exact Scope.singleReference_like stands.owners (TypeSignature.like_iff.mpr same) _ _
  simp only [container, List.map_append, List.map_map, List.map_flatMap, Function.comp_def,
    actions, somes,
    ones, hasMany_like stands]
  refine (((shuffles.actions.map _).append ?_).append (shuffles.hasSome.map _)).append
    (shuffles.hasOne.map _)
  exact shuffles.hasMany.flatMap_right _

theorem label_of_mem (placed : scope.Placed) {key : String} {t : TypeSignature}
    (there : (key, t) ∈ scope) : scope.label t.owner.site = some t.ref.name := by
  obtain ⟨index, found⟩ := List.mem_iff_getElem?.mp there
  have ref : t.ref = ⟨index, key⟩ := placed index (key, t) found
  simp [Scope.label, TypeSignature.owner, ref, found]

/-- Like types of the two scopes stand alike. -/
theorem stands_of_mem (placed : scope.Placed) (placed' : scope'.Placed) (scopes : scope.Like scope')
    {key key' : String} {t t' : TypeSignature} (there : (key, t) ∈ scope) (there' : (key', t') ∈ scope')
    (types : t.Like t') : t.owner.Stands scope scope' t'.owner where
  scopes := scopes
  owners := types
  labels := by rw [label_of_mem placed there, label_of_mem placed' there', types.1]

private theorem child_like (placed : scope.Placed) (placed' : scope'.Placed)
    {parent parent' : TypeSignature} (stands : parent.owner.Stands scope scope' parent'.owner)
    (shared : Keyed String) (name : String) :
    (child scope parent shared name).map (Step.view scope) =
      (child scope' parent' shared name).map (Step.view scope') := by
  have parents : parent.Like parent' := stands.owners
  have found := Scope.lookup_like stands.scopes stands.owners "subResources" (some name)
  unfold child
  rcases cases_of_map_eq found with ⟨fault, missing, missing'⟩ | ⟨target, target', here, here', same⟩
  · rw [missing, missing']
    exact congrArg (fun step => [step]) (stop_like stands.labels fault)
  · have types : target.Like target' := TypeSignature.like_iff.mpr same
    obtain ⟨_, there⟩ := Scope.mem_of_lookup here
    obtain ⟨_, there'⟩ := Scope.mem_of_lookup here'
    have below := stands_of_mem placed placed' stands.scopes there there' types
    rw [here, here', ← parents.1]
    have made : (do
          Scope.checkSources parent.owner (identifierSources shared)
          Scope.checkSources target.owner (identifierSources (shared.map Prod.swap))
          related target (identifierSources shared) : Except Failure Operation).map Operation.view =
        (do
          Scope.checkSources parent'.owner (identifierSources shared)
          Scope.checkSources target'.owner (identifierSources (shared.map Prod.swap))
          related target' (identifierSources shared) : Except Failure Operation).map Operation.view := by
      rw [Scope.checkSources_like stands.owners, Scope.checkSources_like below.owners]
      exact map_bind_congr fun _ => map_bind_congr fun _ => related_like types _
    have downward := named_like stands.labels (snakeCase (withoutParent name parent.ref.name)) made
    have upward := named_like below.labels (snakeCase parent.ref.name)
      (related_like parents (identifierSources (shared.map Prod.swap)))
    simp only [List.map_cons, List.map_nil, downward, upward]

/-- Types and rules that belong together, in two documents. -/
def SameSide (scope scope' : Scope) (x y : TypeSignature × ResourceRules) : Prop :=
  x.1.owner.Stands scope scope' y.1.owner ∧ x.2.Shuffles y.2

/-- **Changing the order of entries changes the order of steps only.** -/
theorem ofDocument_shuffled {d d' : Document} (service : String) (placed : scope.Placed)
    (placed' : scope'.Placed) (scopes : scope.Like scope') (services : d.service.Shuffles d'.service)
    (sides : Shuffled (SameSide scope scope') ((scope.map Prod.snd).zip (d.resources.map Prod.snd))
      ((scope'.map Prod.snd).zip (d'.resources.map Prod.snd))) :
    ((ofDocument d service scope).map (Step.view scope)).Perm
      ((ofDocument d' service scope').map (Step.view scope')) := by
  have root : (Owner.mk .root service []).Stands scope scope' ⟨.root, service, []⟩ :=
    ⟨scopes, ⟨rfl, rfl⟩, rfl⟩
  simp only [ofDocument, List.map_append, List.map_flatMap]
  refine ((List.Perm.append ?_ (container_shuffled root services)).append ?_).append ?_
  · refine sides.flatMap fun x y side => ?_
    obtain ⟨stands, rules⟩ := side
    simp only [List.map_map, rules.load, Function.comp_def, load_like stands]
    exact .refl _
  · exact sides.flatMap fun x y side => container_shuffled side.1 side.2.container
  · refine sides.flatMap fun x y side => ?_
    obtain ⟨stands, rules⟩ := side
    simp only [children, List.map_flatMap, rules.subResources, child_like placed placed' stands]
    exact .refl _

end Plan

/-! ## Documents -/

/-- A name means the type that the document declares under it. -/
theorem Scope.Of.get? {d : Document} {scope : Scope} (same : Scope.Of d scope) (name : String) :
    (Keyed.get? scope name).map TypeSignature.view =
      (Keyed.get? d.resources name).map fun rules => (name, rules.identifiers.map snakeCase) := by
  have declared := congrArg (Keyed.get? · name) same.entries
  simp only [Keyed.get?_map scope fun _ t => t.identifiers,
    Keyed.get?_map d.resources fun _ rules => rules.identifiers.map snakeCase] at declared
  have named : ∀ t, Keyed.get? scope name = some t → t.ref.name = name := by
    intro t found
    obtain ⟨index, there⟩ := List.mem_iff_getElem?.mp (Keyed.mem_of_get? found)
    rw [same.placed index _ there]
  cases found : Keyed.get? scope name with
  | none =>
    rw [found] at declared
    cases written : Keyed.get? d.resources name with
    | none => rfl
    | some rules => simp [written] at declared
  | some t =>
    rw [found] at declared
    cases written : Keyed.get? d.resources name with
    | none => simp [written] at declared
    | some rules =>
      rw [written] at declared
      simp [TypeSignature.view, named t found, Option.some.inj declared]

namespace Document.Shuffles

variable {d d' : Document} {scope scope' : Scope}

/-- The scopes of the documents have like types under the same names. -/
theorem scopes (shuffles : d.Shuffles d') (distinct : (Keyed.keys d.resources).Nodup)
    (same : Scope.Of d scope) (same' : Scope.Of d' scope') : scope.Like scope' := by
  intro name
  have rules := Keyed.get?_shuffled shuffles.resources distinct name
  refine rel_of_map_eq (f := TypeSignature.view) (g := TypeSignature.view) ?_ fun _ _ =>
    TypeSignature.like_iff.mpr
  rw [same.get?, same'.get?]
  exact map_eq_of_rel rules fun _ _ both => by rw [both.identifiers]

/-- Types and rules of the documents belong together as their entries do. -/
theorem sides (shuffles : d.Shuffles d') (scopes : scope.Like scope') (same : Scope.Of d scope)
    (same' : Scope.Of d' scope') :
    Shuffled (Plan.SameSide scope scope') ((scope.map Prod.snd).zip (d.resources.map Prod.snd))
      ((scope'.map Prod.snd).zip (d'.resources.map Prod.snd)) := by
  have entries : ∀ {d : Document} {scope : Scope}, Scope.Of d scope →
      ((scope.map Prod.snd).zip (d.resources.map Prod.snd)).map (fun x => (x.1.ref.name, x.2)) =
        d.resources := by
    intro d scope same
    rw [same.sides, List.map_map]
    exact List.zipIdx_map_fst 0 d.resources
  have members : ∀ {d : Document} {scope : Scope}, Scope.Of d scope →
      ∀ x ∈ (scope.map Prod.snd).zip (d.resources.map Prod.snd),
        (∃ key, (key, x.1) ∈ scope) ∧ x.1.identifiers = x.2.identifiers.map snakeCase := by
    intro d scope same x member
    obtain ⟨listed, _⟩ := List.of_mem_zip member
    obtain ⟨⟨key, _⟩, there, rfl⟩ := List.mem_map.mp listed
    rw [same.sides] at member
    obtain ⟨entry, _, rfl⟩ := List.mem_map.mp member
    exact ⟨⟨key, there⟩, rfl⟩
  have resources := shuffles.resources
  rw [← entries same, ← entries same'] at resources
  refine resources.of_map.mono fun x member y member' ⟨name, rules⟩ => ⟨?_, rules⟩
  obtain ⟨⟨key, there⟩, identifiers⟩ := members same x member
  obtain ⟨⟨key', there'⟩, identifiers'⟩ := members same' y member'
  refine Plan.stands_of_mem same.placed same'.placed scopes there there' ⟨name, ?_⟩
  rw [identifiers, identifiers', rules.identifiers]

end Document.Shuffles

end ResourceGraph
