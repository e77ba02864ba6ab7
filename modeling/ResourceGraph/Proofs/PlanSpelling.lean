import ResourceGraph.Proofs.CompileFaults
import ResourceGraph.Proofs.Shuffling

/-!
Plans of documents in another spelling. The names that callers see count by their snake case: where
two documents differ in the spelling of such names only, their plans attach the same at the same
places, or cannot go on at the same place. The message of a fault may show the spelling, and nothing
else does.
-/

namespace ResourceGraph

open Naming

variable {α β γ : Type}

/-! ## Agreeing outcomes -/

/-- Both outcomes are the same, or both are faults of the definition. -/
inductive Agree : Except Failure α → Except Failure α → Prop
  | same (x : Except Failure α) : Agree x x
  | faults (fault fault' : DefinitionFault) :
      Agree (.error (.definition fault)) (.error (.definition fault'))

namespace Agree

variable {x y : Except Failure α}

theorem bind {f g : α → Except Failure β} (first : Agree x y) (rest : ∀ a, Agree (f a) (g a)) :
    Agree (x >>= f) (y >>= g) := by
  cases first with
  | same x =>
    cases x with
    | error failure => exact .same _
    | ok a => exact rest a
  | faults fault fault' => exact .faults fault fault'

private theorem map (agree : Agree x y) (f : α → β) : Agree (x.map f) (y.map f) := by
  cases agree with
  | same x => exact .same _
  | faults fault fault' => exact .faults fault fault'

private theorem mapM {related : α → β → Prop} {f : α → Except Failure γ} {g : β → Except Failure γ}
    {xs : List α} {ys : List β} (pairs : List.Forall₂ related xs ys)
    (each : ∀ x y, related x y → Agree (f x) (g y)) :
    Agree (xs.mapM f) (ys.mapM g) := by
  induction pairs with
  | nil => exact .same _
  | cons first _ ih =>
    rw [List.mapM_cons, List.mapM_cons]
    exact .bind (each _ _ first) fun a => .bind ih fun _ => .same _

private theorem foldlM {related : α → β → Prop} {f : γ → α → Except Failure γ}
    {g : γ → β → Except Failure γ} {xs : List α} {ys : List β} (pairs : List.Forall₂ related xs ys)
    (each : ∀ c x y, related x y → Agree (f c x) (g c y)) (c : γ) :
    Agree (xs.foldlM f c) (ys.foldlM g c) := by
  induction pairs generalizing c with
  | nil => exact .same _
  | cons first _ ih =>
    rw [List.foldlM_cons, List.foldlM_cons]
    exact .bind (each c _ _ first) ih

theorem definite (agree : Agree x y) (definite : Definite x) : Definite y := by
  cases agree with
  | same x => exact definite
  | faults fault fault' =>
    intro f failed
    cases failed
    exact ⟨fault', rfl⟩

end Agree

/-! ## Documents in another spelling -/

/-- The two are spellings of one name. -/
def Respelt (s t : String) : Prop := snakeCase s = snakeCase t

/-- Only the spelling of a name under which something stands may differ. -/
def RespeltKey (related : α → β → Prop) (x : String × α) (y : String × β) : Prop :=
  Respelt x.1 y.1 ∧ related x.2 y.2

/-- The two are written as spellings of one name, or neither is written. -/
structure Value.Respells (v w : Json) : Prop where
  text : Respelt v.text w.text
  tooLong : v.isTooLong = w.isTooLong

theorem Value.Respells.refl (v : Json) : Respells v v := ⟨rfl, rfl⟩

/-- Only the identifier that is projected may be spelt in another way. -/
structure ParamRule.Respells (p p' : ParamRule) : Prop where
  target : p.target = p'.target
  kind : p.kind = p'.kind
  source : if p.kind = .identifier then p.source.Respells p'.source else p.source = p'.source

/-- Only the operation and the identifiers that are projected may be spelt in another way. -/
structure RequestRule.Respells (r r' : RequestRule) : Prop where
  operation : Respelt r.operation r'.operation
  params : List.Forall₂ ParamRule.Respells r.params r'.params

/-- Only the identifier that is given, and the one that it is read from, may be spelt in another
way. -/
structure SourceRule.Respells (s s' : SourceRule) : Prop where
  target : Respelt s.target s'.target
  kind : s.kind = s'.kind
  source : if s.kind = .identifier then Respelt s.source s'.source else s.source = s'.source

/-- Only the identifiers may be spelt in another way. -/
structure BuildRule.Respells (b b' : BuildRule) : Prop where
  type : b.type = b'.type
  identifiers : List.Forall₂ SourceRule.Respells b.identifiers b'.identifiers
  path : b.path = b'.path

structure LoadRule.Respells (l l' : LoadRule) : Prop where
  request : l.request.Respells l'.request
  path : l.path = l'.path

structure ActionRule.Respells (a a' : ActionRule) : Prop where
  request : a.request.Respells a'.request
  path : a.path = a'.path
  resource : Option.Rel BuildRule.Respells a.resource a'.resource

structure CallRule.Respells (c c' : CallRule) : Prop where
  request : c.request.Respells c'.request
  resource : c.resource.Respells c'.resource

structure HasManyRule.Respells (h h' : HasManyRule) : Prop where
  type : h.type = h'.type
  enumerate : Option.Rel CallRule.Respells h.enumerate h'.enumerate
  create : Option.Rel CallRule.Respells h.create h'.create
  resource : Option.Rel BuildRule.Respells h.resource h'.resource

structure AssociationRule.Respells (a a' : AssociationRule) : Prop where
  type : a.type = a'.type
  resource : a.resource.Respells a'.resource

/-- Only the identifiers that are shared may be spelt in another way, those of the parent and of the
child. -/
structure SubResourcesRule.Respells (s s' : SubResourcesRule) : Prop where
  resources : s.resources = s'.resources
  identifiers : List.Forall₂ (RespeltKey Respelt) s.identifiers s'.identifiers

/-- The names of rules may be spelt in another way, and what is respelt inside them. -/
structure ContainerRules.Respells (r r' : ContainerRules) : Prop where
  actions : List.Forall₂ (RespeltKey ActionRule.Respells) r.actions r'.actions
  hasMany : List.Forall₂ (RespeltKey HasManyRule.Respells) r.hasMany r'.hasMany
  hasSome : List.Forall₂ (RespeltKey AssociationRule.Respells) r.hasSome r'.hasSome
  hasOne : List.Forall₂ (RespeltKey AssociationRule.Respells) r.hasOne r'.hasOne

structure ResourceRules.Respells (r r' : ResourceRules) : Prop where
  container : r.container.Respells r'.container
  identifiers : List.Forall₂ Respelt r.identifiers r'.identifiers
  shape : r.shape = r'.shape
  load : Option.Rel LoadRule.Respells r.load r'.load
  subResources : Option.Rel SubResourcesRule.Respells r.subResources r'.subResources

/-- The documents differ in the spelling of names that callers see only. -/
structure Document.Respells (d d' : Document) : Prop where
  service : d.service.Respells d'.service
  resources : List.Forall₂ (SameKey ResourceRules.Respells) d.resources d'.resources

/-! ## What rules make -/

/-- Sequences whose members come to the same come to the same. -/
theorem mapM_of_forall₂ {related : α → β → Prop} {f : α → Except Failure γ} {g : β → Except Failure γ}
    {xs : List α} {ys : List β} (pairs : List.Forall₂ related xs ys)
    (each : ∀ x y, related x y → f x = g y) :
    xs.mapM f = ys.mapM g := by
  induction pairs with
  | nil => rfl
  | cons first _ ih => rw [List.mapM_cons, List.mapM_cons, each _ _ first, ih]

private theorem map_respelt {names names' : List String} (respelt : List.Forall₂ Respelt names names') :
    names.map snakeCase = names'.map snakeCase := by
  induction respelt with
  | nil => rfl
  | cons first _ ih => exact congrArg₂ List.cons first ih

namespace Scope

variable {owner : Owner} {target : TypeSignature} {scope : Scope} {name name' : String}

theorem lookup_agree (scope : Scope) (owner : Owner) (name name' : String) (type : Option String) :
    Agree (scope.lookup owner name type) (scope.lookup owner name' type) := by
  unfold lookup
  cases type with
  | none => exact .faults _ _
  | some type =>
    dsimp only
    cases Keyed.get? scope type with
    | none => exact .faults _ _
    | some found => exact .same _

private theorem given_agree {rule rule' : ParamRule} (respells : rule.Respells rule')
    (operation operation' : String) :
    Agree (given owner operation rule) (given owner operation' rule') := by
  obtain ⟨_, kinds, sources⟩ := respells
  unfold given
  rw [← kinds]
  cases kind : rule.kind with
  | identifier =>
    rw [kind, if_pos rfl] at sources
    have name : snakeCase rule.source.text = snakeCase rule'.source.text := sources.text
    dsimp only
    cases long : rule.source.isTooLong with
    | true =>
      have long' : rule'.source.isTooLong = true := sources.tooLong ▸ long
      rw [written, if_pos long, written, if_pos long']
      exact .same _
    | false =>
      rw [written_of_fits long, written_of_fits (sources.tooLong ▸ long)]
      change Agree (if _ then _ else _) (if _ then _ else _)
      rw [← name]
      by_cases declared : owner.identifiers.contains (snakeCase rule.source.text)
      · rw [if_pos declared, if_pos declared]
        exact .same _
      · rw [if_neg declared, if_neg declared]
        exact .faults _ _
  | _ =>
    rw [kind, if_neg nofun] at sources
    rw [sources]
    exact .same _

private theorem projection_agree {rule rule' : ParamRule} (respells : rule.Respells rule')
    (operation operation' : String) :
    Agree (projection owner operation rule) (projection owner operation' rule') := by
  unfold projection
  rw [respells.target, respells.kind]
  exact .bind (given_agree respells operation operation') fun _ => .same _

theorem request_agree {rule rule' : RequestRule} (respells : rule.Respells rule') :
    Agree (request owner rule) (request owner rule') := by
  unfold request
  have names : snakeCase rule.operation = snakeCase rule'.operation := respells.operation
  rw [names]
  exact .bind (.mapM respells.params fun _ _ each => projection_agree each _ _) fun _ => .same _

private theorem source_respelt {rule rule' : SourceRule} (respells : rule.Respells rule') :
    source rule = source rule' := by
  obtain ⟨targets, kinds, sources⟩ := respells
  unfold Respelt at targets sources
  unfold source
  rw [targets, ← kinds]
  cases kind : rule.kind with
  | identifier =>
    rw [kind, if_pos rfl] at sources
    dsimp only
    rw [sources]
  | _ =>
    rw [kind, if_neg nofun] at sources
    dsimp only
    rw [sources]

theorem builder_respelt {rule rule' : BuildRule} (respells : rule.Respells rule') :
    builder owner target rule = builder owner target rule' := by
  have sources : rule.identifiers.mapM source = rule'.identifiers.mapM source :=
    mapM_of_forall₂ respells.identifiers fun _ _ => source_respelt
  unfold builder
  rw [sources, respells.path]

private theorem referenceBuilder_agree {rule rule' : BuildRule} (respells : rule.Respells rule')
    (name name' : String) :
    Agree (referenceBuilder owner name target rule) (referenceBuilder owner name' target rule') := by
  unfold referenceBuilder
  rw [builder_respelt respells]
  refine .bind (.same _) fun made => ?_
  cases made.readsResponse with
  | true => exact .faults _ _
  | false => exact .same _

private theorem reference_agree {rule rule' : BuildRule} (respells : rule.Respells rule')
    (name name' : String) :
    Agree (reference owner name target rule) (reference owner name' target rule') :=
  .bind (referenceBuilder_agree respells name name') fun _ => .same _

private theorem singleReference_agree {rule rule' : BuildRule} (respells : rule.Respells rule')
    (name name' : String) :
    Agree (singleReference owner name target rule) (singleReference owner name' target rule') := by
  refine .bind (referenceBuilder_agree respells name name') fun made => ?_
  cases made.isPlural with
  | true => exact .faults _ _
  | false => exact .same _

private theorem load_agree {rule rule' : LoadRule} (respells : rule.Respells rule') :
    Agree (load owner rule) (load owner rule') := by
  unfold load
  rw [respells.path]
  exact .bind (request_agree respells.request) fun _ => .same _

private theorem action_agree {rule rule' : ActionRule} (respells : rule.Respells rule')
    (name name' : String) :
    Agree (scope.action owner name rule) (scope.action owner name' rule') := by
  obtain ⟨requests, paths, resources⟩ := respells
  unfold action
  rw [paths]
  refine .bind (request_agree requests) fun call => ?_
  generalize rule.resource = resource at resources
  generalize rule'.resource = resource' at resources
  cases resources with
  | none =>
    cases rule'.path <;> exact .same _
  | @some build build' builds =>
    dsimp only
    rw [builds.type]
    refine .bind (lookup_agree scope owner name name' _) fun target => ?_
    rw [builder_respelt builds]
    exact .same _

private theorem creation_agree {rule rule' : CallRule} (respells : rule.Respells rule') :
    Agree (creation owner target rule) (creation owner target rule') := by
  unfold creation
  rw [builder_respelt respells.resource]
  exact .bind (request_agree respells.request) fun _ => .same _

private theorem enumeration_agree {rule rule' : CallRule} (respells : rule.Respells rule')
    (name name' : String) :
    Agree (enumeration owner name target rule) (enumeration owner name' target rule') := by
  unfold enumeration
  rw [builder_respelt respells.resource]
  refine .bind (.same _) fun made => ?_
  cases made.isPlural with
  | true => exact .bind (request_agree respells.request) fun _ => .same _
  | false => exact .faults _ _

end Scope

/-! ## Plans -/

/-- The steps attach the same at the same place, or both stop with a fault of the definition. -/
structure Step.Agrees (s s' : Step) : Prop where
  site : s.site = s'.site
  attachment : Agree s.attachment s'.attachment

namespace Plan

variable {owner : Owner} {target : TypeSignature} {scope : Scope} {name name' : String}

theorem named_agrees {made made' : Except Failure Operation} (names : name = name')
    (agree : Agree made made') :
    (named owner name made).Agrees (named owner name' made') := by
  subst names
  exact ⟨rfl, agree.map _⟩

theorem map_toList_agree {related : α → β → Prop} {x : Option α} {y : Option β}
    (pair : Option.Rel related x y) {f : α → Step} {g : β → Step}
    (each : ∀ a b, related a b → (f a).Agrees (g b)) :
    List.Forall₂ Step.Agrees (x.toList.map f) (y.toList.map g) := by
  cases pair with
  | none => exact .nil
  | some values => exact .cons (each _ _ values) .nil

private theorem isNone_of_rel {related : α → β → Prop} {x : Option α} {y : Option β}
    (pair : Option.Rel related x y) :
    x.isNone = y.isNone := by
  cases pair <;> rfl

private theorem singularSteps_agree {rule rule' : HasManyRule} (names : Respelt name name')
    (respells : rule.Respells rule') :
    List.Forall₂ Step.Agrees (singularSteps owner name target rule)
      (singularSteps owner name' target rule') := by
  obtain ⟨_, _, creates, resources⟩ := respells
  unfold singularSteps
  rw [isNone_of_rel creates, isNone_of_rel resources, ← names]
  split
  · exact .nil
  · cases singular? (snakeCase name) with
    | none => exact .cons ⟨rfl, .faults _ _⟩ .nil
    | some singular =>
      refine List.rel_append (map_toList_agree creates fun _ _ each => ?_)
        (map_toList_agree resources fun _ _ each => ?_)
      · exact named_agrees rfl (Scope.creation_agree each)
      · exact named_agrees rfl (Scope.reference_agree each name name')

private theorem hasMany_agree {rule rule' : HasManyRule} (names : Respelt name name')
    (respells : rule.Respells rule') :
    List.Forall₂ Step.Agrees (hasMany scope owner name rule) (hasMany scope owner name' rule') := by
  unfold hasMany
  rw [← respells.type]
  have found := Scope.lookup_agree scope owner name name' (some rule.type)
  generalize scope.lookup owner name (some rule.type) = x at found
  generalize scope.lookup owner name' (some rule.type) = y at found
  cases found with
  | faults fault fault' => exact .cons ⟨rfl, .faults _ _⟩ .nil
  | same x =>
    cases x with
    | error failure => exact .cons ⟨rfl, .same _⟩ .nil
    | ok target =>
      refine List.rel_append (map_toList_agree respells.enumerate fun _ _ each => ?_)
        (singularSteps_agree names respells)
      exact named_agrees names (Scope.enumeration_agree each name name')

private theorem hasSome_agrees {rule rule' : AssociationRule} (names : Respelt name name')
    (respells : rule.Respells rule') :
    (hasSome scope owner name rule).Agrees (hasSome scope owner name' rule') := by
  unfold hasSome
  rw [← respells.type]
  refine named_agrees names (.bind (Scope.lookup_agree scope owner name name' _) fun target => ?_)
  exact Scope.reference_agree respells.resource name name'

private theorem hasOne_agrees {rule rule' : AssociationRule} (names : Respelt name name')
    (respells : rule.Respells rule') :
    (hasOne scope owner name rule).Agrees (hasOne scope owner name' rule') := by
  unfold hasOne
  rw [← respells.type]
  refine named_agrees names (.bind (Scope.lookup_agree scope owner name name' _) fun target => ?_)
  exact Scope.singleReference_agree respells.resource name name'

private theorem container_agree {rules rules' : ContainerRules} (respells : rules.Respells rules') :
    List.Forall₂ Step.Agrees (container scope owner rules) (container scope owner rules') := by
  obtain ⟨actions, many, somes, ones⟩ := respells
  refine List.rel_append (List.rel_append (List.rel_append ?_ ?_) ?_) ?_
  · refine List.rel_map (fun x y each => ?_) actions
    exact named_agrees each.1 (Scope.action_agree each.2 x.1 y.1)
  · exact List.rel_flatMap many fun x y each => hasMany_agree each.1 each.2
  · exact List.rel_map (fun x y each => hasSome_agrees each.1 each.2) somes
  · exact List.rel_map (fun x y each => hasOne_agrees each.1 each.2) ones

private theorem children_respelt {rule rule' : SubResourcesRule} (respells : rule.Respells rule')
    (scope : Scope)
    (parent : TypeSignature) : children scope parent rule = children scope parent rule' := by
  have shared : sharedIdentifiers rule = sharedIdentifiers rule' := by
    unfold sharedIdentifiers
    congr 1
    have pairs := respells.identifiers
    generalize rule.identifiers = xs at pairs
    generalize rule'.identifiers = ys at pairs
    induction pairs with
    | nil => rfl
    | cons first _ ih => exact congrArg₂ List.cons (Prod.ext first.1 first.2) ih
  unfold children
  rw [shared, respells.resources]

private theorem agrees_refl (steps : List Step) : List.Forall₂ Step.Agrees steps steps :=
  List.forall₂_same.mpr fun _ _ => ⟨rfl, .same _⟩

/-- Types beside rules in another spelling. -/
theorem zip_respelt {rules rules' : List ResourceRules}
    (respells : List.Forall₂ ResourceRules.Respells rules rules') (types : List TypeSignature) :
    List.Forall₂ (fun x y => x.1 = y.1 ∧ x.2.Respells y.2) (types.zip rules) (types.zip rules') := by
  induction respells generalizing types with
  | nil =>
    rw [List.zip_nil_right]
    exact .nil
  | cons first _ ih =>
    cases types with
    | nil => exact .nil
    | cons type types => exact .cons ⟨rfl, first⟩ (ih types)

/-- **The plans of documents in another spelling agree, step by step.** -/
theorem ofDocument_agree {d d' : Document} (respells : d.Respells d') (service : String)
    (scope : Scope) :
    List.Forall₂ Step.Agrees (ofDocument d service scope) (ofDocument d' service scope) := by
  have rules : List.Forall₂ ResourceRules.Respells (d.resources.map Prod.snd)
      (d'.resources.map Prod.snd) :=
    List.rel_map (fun x y each => each.2) respells.resources
  have sides := zip_respelt rules (scope.map Prod.snd)
  refine List.rel_append (List.rel_append (List.rel_append ?_ ?_) ?_) ?_
  · refine List.rel_flatMap sides fun x y ⟨types, each⟩ => ?_
    obtain ⟨type, rules⟩ := x
    obtain ⟨type', rules'⟩ := y
    cases types
    exact map_toList_agree each.load fun _ _ loads => ⟨rfl, (Scope.load_agree loads).map _⟩
  · exact container_agree respells.service
  · refine List.rel_flatMap sides fun x y ⟨types, each⟩ => ?_
    obtain ⟨type, rules⟩ := x
    obtain ⟨type', rules'⟩ := y
    cases types
    exact container_agree each.container
  · refine List.rel_flatMap sides fun x y ⟨types, each⟩ => ?_
    obtain ⟨type, rules⟩ := x
    obtain ⟨type', rules'⟩ := y
    cases types
    have parents := each.subResources
    dsimp only at parents ⊢
    generalize rules.subResources = z at parents
    generalize rules'.subResources = z' at parents
    cases parents with
    | none => exact .nil
    | some shares =>
      simp only [Option.toList_some, List.flatMap_cons, List.flatMap_nil, List.append_nil]
      rw [children_respelt shares]
      exact agrees_refl _

end Plan

/-! ## Models -/

theorem Draft.take_agree {step step' : Step} (agrees : step.Agrees step') (d : Draft) :
    Agree (d.take step) (d.take step') := by
  unfold take
  rw [agrees.site]
  exact .bind agrees.attachment fun _ => .same _

namespace Model

variable {d d' : Document}

private theorem bareTypes_respelt (respells : d.Respells d') (factory : Option Nat) :
    bareTypes d factory = bareTypes d' factory := by
  refine mapM_of_forall₂ respells.resources fun x y ⟨names, rules⟩ => ?_
  obtain ⟨name, rules⟩ := x
  obtain ⟨name', rules'⟩ := y
  cases names
  dsimp only at rules ⊢
  rw [map_respelt rules.identifiers]

/-- Documents in another spelling compile to the same model, or do not compile. -/
theorem ofDocument_agree (respells : d.Respells d') (service : String) (factory : Option Nat) :
    Agree (ofDocument d service factory) (ofDocument d' service factory) := by
  unfold ofDocument
  rw [bareTypes_respelt respells]
  refine .bind (.same _) fun types => .bind ?_ fun _ => .same _
  exact .foldlM (Plan.ofDocument_agree respells service (scopeOf types))
    (fun d _ _ each => Draft.take_agree each d) _

end Model

end ResourceGraph
