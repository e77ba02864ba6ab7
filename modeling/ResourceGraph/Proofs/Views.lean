import ResourceGraph.Model.Compile
import ResourceGraph.Proofs.Outcome

/-!
What can be seen of a model without the order in which it was put together. A view names the types
that builders give and finds operations by their names; the places of types in the document do not
occur in it. The parts of two models that are made of the same rules, by owners of one name and in
scopes with the same types under the same names, have the same view.
-/

namespace ResourceGraph

open Outcome

/-- A builder, with the name of the type it builds. -/
structure BuilderView where
  target : String
  sources : List IdentifierSource
  loadPath : Option String
  deriving DecidableEq

/-- An operation: its kind and its parts. -/
structure OperationView where
  kind : OperationKind
  request : Option Request
  path : Option String
  builder : Option BuilderView
  deriving DecidableEq

/-- A type, whose operations are found by their names. -/
structure TypeView where
  name : String
  identifiers : List String
  load : Option OperationView := none
  operations : String → Option OperationView := fun _ => none

/-- A root, and types that are found by their names. -/
structure ModelView where
  root : TypeView
  types : String → Option TypeView

def Builder.view (b : Builder) : BuilderView := ⟨b.target.name, b.sources, b.loadPath⟩

def Operation.view (o : Operation) : OperationView :=
  ⟨o.kind, o.request?, o.path?, o.builder?.map Builder.view⟩

def ResourceType.view (t : ResourceType) : TypeView where
  name := t.name
  identifiers := t.identifiers
  load := t.load.map Operation.view
  operations name := (Keyed.get? t.operations name).map Operation.view

/-- The view of types that are kept in some order. -/
def ModelView.of (root : ResourceType) (types : Keyed ResourceType) : ModelView :=
  ⟨root.view, fun name => (Keyed.get? types name).map ResourceType.view⟩

def Model.view (m : Model) : ModelView := .of m.root m.types

/-- The types have one name and the same identifiers, wherever they stand. -/
def TypeSignature.Like (t t' : TypeSignature) : Prop :=
  t.ref.name = t'.ref.name ∧ t.identifiers = t'.identifiers

/-- The owners have one name and the same identifiers, wherever they stand. -/
def Owner.Like (owner owner' : Owner) : Prop :=
  owner.name = owner'.name ∧ owner.identifiers = owner'.identifiers

/-- Like types are found under the same names. -/
def Scope.Like (scope scope' : Scope) : Prop :=
  ∀ name, Option.Rel TypeSignature.Like (Keyed.get? scope name) (Keyed.get? scope' name)

/-- What likeness compares. -/
def TypeSignature.view (t : TypeSignature) : String × List String := (t.ref.name, t.identifiers)

theorem TypeSignature.like_iff {t t' : TypeSignature} : t.Like t' ↔ t.view = t'.view := by
  simp [Like, view]

section Parts

variable {scope scope' : Scope} {owner owner' : Owner} {t t' : TypeSignature}

namespace Scope

theorem lookup_like (scopes : scope.Like scope') (owners : owner.Like owner') (rule : String)
    (type : Option String) :
    (scope.lookup owner rule type).map TypeSignature.view =
      (scope'.lookup owner' rule type).map TypeSignature.view := by
  cases type with
  | none => simp [lookup, refuse, Except.map, owners.1]
  | some name =>
    have found := scopes name
    unfold lookup
    dsimp only
    generalize Keyed.get? scope name = x at found
    generalize Keyed.get? scope' name = y at found
    cases found with
    | none => simp [refuse, Except.map, owners.1]
    | some like => simpa [Except.map] using TypeSignature.like_iff.mp like

theorem request_like (owners : owner.Like owner') (rule : RequestRule) :
    request owner rule = request owner' rule := by
  obtain ⟨site, name, identifiers⟩ := owner
  obtain ⟨site', name', identifiers'⟩ := owner'
  obtain ⟨rfl, rfl⟩ := owners
  rfl

theorem checkSources_like (owners : owner.Like owner') (sources : List IdentifierSource) :
    checkSources owner sources = checkSources owner' sources := by
  induction sources with
  | nil => rfl
  | cons s rest ih => rw [checkSources, checkSources, ih, owners.1, owners.2]

end Scope

theorem Builder.make_like (types : t.Like t') (sources : List IdentifierSource) (path : Option String) :
    (Builder.make (some t) sources path).map Builder.view =
      (Builder.make (some t') sources path).map Builder.view := by
  obtain ⟨⟨index, name⟩, identifiers⟩ := t
  obtain ⟨⟨index', name'⟩, identifiers'⟩ := t'
  obtain ⟨rfl, rfl⟩ := types
  refine map_bind_congr fun completed => ?_
  cases path with
  | none => rfl
  | some text =>
    cases data : text.isEmpty <;> simp only [dataSource?, data]
    · exact map_bind_congr fun _ => rfl
    · rfl

/-- What a builder asks for does not depend on where its type stands. -/
theorem Builder.isPlural_of_view {b b' : Builder} (same : b.view = b'.view) :
    b.isPlural = b'.isPlural := by
  obtain ⟨target, sources, path⟩ := b
  obtain ⟨target', sources', path'⟩ := b'
  simp only [view, BuilderView.mk.injEq] at same
  obtain ⟨_, rfl, rfl⟩ := same
  rfl

theorem Builder.readsResponse_of_view {b b' : Builder} (same : b.view = b'.view) :
    b.readsResponse = b'.readsResponse := by
  obtain ⟨target, sources, path⟩ := b
  obtain ⟨target', sources', path'⟩ := b'
  simp only [view, BuilderView.mk.injEq] at same
  obtain ⟨_, rfl, rfl⟩ := same
  rfl

namespace Operation

private theorem needBuilder_like {b b' : Option Builder}
    (builders : b.map Builder.view = b'.map Builder.view) (kind : OperationKind)
    (r : Option Request) (p : Option String) :
    (needBuilder kind ⟨r, b, p⟩).map Builder.view = (needBuilder kind ⟨r, b', p⟩).map Builder.view := by
  cases b with
  | none =>
    cases b' with
    | none => rfl
    | some b' => cases builders
  | some b =>
    cases b' with
    | none => cases builders
    | some b' => exact congrArg Except.ok (Option.some.inj builders)

private theorem assemble_like {b b' : Option Builder}
    (builders : b.map Builder.view = b'.map Builder.view) (kind : OperationKind)
    (r : Option Request) (p : Option String) :
    (assemble kind ⟨r, b, p⟩).map Operation.view = (assemble kind ⟨r, b', p⟩).map Operation.view := by
  cases kind with
  | basic =>
    refine map_bind_congr fun call => ?_
    exact congrArg Except.ok (congrArg (OperationView.mk _ _ _) builders)
  | data | enumerateData | load =>
    refine map_bind_congr fun call => map_bind_congr fun path => ?_
    exact congrArg Except.ok (congrArg (OperationView.mk _ _ _) builders)
  | resource =>
    refine map_bind_congr fun call => map_bind_eq (needBuilder_like builders _ r p) fun _ _ same => ?_
    exact congrArg Except.ok (congrArg (fun b => OperationView.mk _ _ _ (some b)) same)
  | enumerateResource =>
    refine map_bind_congr fun call => map_bind_eq (needBuilder_like builders _ r p) fun _ _ same => ?_
    rw [Builder.isPlural_of_view same]
    split
    · exact congrArg Except.ok (congrArg (fun b => OperationView.mk _ _ _ (some b)) same)
    · rfl
  | reference =>
    refine map_bind_eq (needBuilder_like builders _ r p) fun _ _ same => ?_
    exact congrArg Except.ok (congrArg (fun b => OperationView.mk _ _ _ (some b)) same)

/-- Operations made of parts with one view have one view. -/
theorem make_like {b b' : Option Builder} (builders : b.map Builder.view = b'.map Builder.view)
    (kind : OperationKind) (r : Option Request) (p : Option String) :
    (make kind ⟨r, b, p⟩).map Operation.view = (make kind ⟨r, b', p⟩).map Operation.view := by
  refine map_bind_eq (assemble_like builders kind r p) fun o o' same => ?_
  have path : o.path? = o'.path? := congrArg OperationView.path same
  rw [path]
  cases o'.path? with
  | none => exact congrArg Except.ok same
  | some text =>
    dsimp only
    split
    · exact congrArg Except.ok same
    · cases Path.compile text with
      | error fault => rfl
      | ok expr => exact congrArg Except.ok same

end Operation

namespace Scope

theorem builder_like (owners : owner.Like owner') (types : t.Like t') (rule : BuildRule) :
    (builder owner t rule).map Builder.view = (builder owner' t' rule).map Builder.view := by
  refine map_bind_congr fun sources => ?_
  rw [checkSources_like owners]
  exact map_bind_congr fun _ => Builder.make_like types sources rule.path

private theorem referenceBuilder_like (owners : owner.Like owner') (types : t.Like t') (name : String)
    (rule : BuildRule) :
    (referenceBuilder owner name t rule).map Builder.view =
      (referenceBuilder owner' name t' rule).map Builder.view := by
  refine map_bind_eq (builder_like owners types rule) fun b b' same => ?_
  have reads : b.readsResponse = b'.readsResponse := Builder.readsResponse_of_view same
  rw [reads, owners.1]
  split
  · rfl
  · exact congrArg Except.ok same

/-- An operation that is made from a builder alone, or from one and a request. -/
theorem make_of_builder {b b' : Builder} (same : b.view = b'.view) (kind : OperationKind)
    (r : Option Request) :
    (Operation.make kind { request := r, builder := some b }).map Operation.view =
      (Operation.make kind { request := r, builder := some b' }).map Operation.view := by
  have both : (some b).map Builder.view = (some b').map Builder.view := congrArg some same
  exact Operation.make_like both kind r none

theorem action_like (scopes : scope.Like scope') (owners : owner.Like owner') (name : String)
    (rule : ActionRule) :
    (scope.action owner name rule).map Operation.view =
      (scope'.action owner' name rule).map Operation.view := by
  obtain ⟨call, path, resource⟩ := rule
  unfold action
  rw [request_like owners]
  refine map_bind_congr fun request => ?_
  cases resource with
  | none => cases path <;> rfl
  | some build =>
    refine map_bind_eq (lookup_like scopes owners name build.type) fun target target' types => ?_
    have alike : target.Like target' := TypeSignature.like_iff.mpr types
    refine map_bind_eq (builder_like owners alike build) fun b b' same => ?_
    rw [Builder.isPlural_of_view same]
    exact make_of_builder same _ _

theorem load_like (owners : owner.Like owner') (rule : LoadRule) :
    (load owner rule).map Operation.view = (load owner' rule).map Operation.view := by
  unfold load
  rw [request_like owners]

theorem enumeration_like (owners : owner.Like owner') (types : t.Like t') (name : String)
    (rule : CallRule) :
    (enumeration owner name t rule).map Operation.view =
      (enumeration owner' name t' rule).map Operation.view := by
  refine map_bind_eq (builder_like owners types rule.resource) fun b b' same => ?_
  rw [Builder.isPlural_of_view same, request_like owners, owners.1]
  split
  · exact map_bind_congr fun request => make_of_builder same _ _
  · rfl

theorem creation_like (owners : owner.Like owner') (types : t.Like t') (rule : CallRule) :
    (creation owner t rule).map Operation.view = (creation owner' t' rule).map Operation.view := by
  unfold creation
  rw [request_like owners]
  refine map_bind_congr fun request => ?_
  exact map_bind_eq (builder_like owners types rule.resource) fun b b' same => make_of_builder same _ _

theorem reference_like (owners : owner.Like owner') (types : t.Like t') (name : String)
    (rule : BuildRule) :
    (reference owner name t rule).map Operation.view =
      (reference owner' name t' rule).map Operation.view :=
  map_bind_eq (referenceBuilder_like owners types name rule) fun _ _ same => make_of_builder same _ _

theorem singleReference_like (owners : owner.Like owner') (types : t.Like t') (name : String)
    (rule : BuildRule) :
    (singleReference owner name t rule).map Operation.view =
      (singleReference owner' name t' rule).map Operation.view := by
  refine map_bind_eq (referenceBuilder_like owners types name rule) fun b b' same => ?_
  rw [Builder.isPlural_of_view same, owners.1]
  split
  · rfl
  · exact make_of_builder same _ _

end Scope

theorem Plan.related_like (types : t.Like t') (sources : List IdentifierSource) :
    (related t sources).map Operation.view = (related t' sources).map Operation.view :=
  map_bind_eq (Builder.make_like types sources none) fun _ _ same => Scope.make_of_builder same _ _

end Parts

end ResourceGraph
