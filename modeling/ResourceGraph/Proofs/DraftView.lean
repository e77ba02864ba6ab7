import ResourceGraph.Proofs.OperationTable
import ResourceGraph.Proofs.ViewRun

/-!
Drafts do to views what views do. While a draft is put together none of its types is frozen and each
keeps its place, so that a step that attaches something to the type at a place attaches it to the
type of that name.
-/

namespace ResourceGraph

open Naming Outcome

namespace Draft

def view (d : Draft) : ModelView := .of d.root d.types

/-- The draft still has the types of the scope at their places, and can be changed. -/
structure Ready (scope : Scope) (d : Draft) : Prop where
  names : Keyed.keys d.types = Keyed.keys scope
  root : d.root.isFrozen = false
  types : ∀ entry ∈ d.types, entry.2.isFrozen = false

private theorem view_setLoad {t : ResourceType} (loose : t.isFrozen = false) (o : Operation) :
    (t.setLoad o).toOption.map ResourceType.view = t.view.attach (.load o.view) := by
  have kinds : o.view.kind = o.kind := rfl
  simp only [ResourceType.setLoad, loose, TypeView.attach, kinds]
  by_cases kind : o.kind = .load
  · cases unset : t.load with
    | none => simp [kind, unset, ResourceType.view, Except.toOption]
    | some l => simp [kind, unset, ResourceType.view, ResourceType.refuse, Except.toOption]
  · simp [kind, ResourceType.refuse, Except.toOption]

private theorem view_addOperation {t : ResourceType} (loose : t.isFrozen = false) (name : String)
    (o : Operation) :
    (t.addOperation name o).toOption.map ResourceType.view = t.view.attach (.operation name o.view) := by
  have unnamed : t.view.operations name = none ↔ name ∉ t.operationNames := by
    rw [ResourceType.operationNames, ← Keyed.get?_eq_none_iff]
    exact Option.map_eq_none_iff
  unfold TypeView.attach
  cases added : t.addOperation name o with
  | error fault =>
    have taken : ¬ (t.view.operations name = none ∧ name ∉ t.identifiers ∧ name ∉ reservedNames) := by
      rintro ⟨fresh, unlike, unreserved⟩
      have absent : Keyed.has t.operations name = false := by
        rw [← Bool.not_eq_true, Keyed.has_iff]
        exact unnamed.mp fresh
      simp [ResourceType.addOperation, loose, absent, unlike, unreserved] at added
    exact (if_neg taken).symm
  | ok u =>
    obtain ⟨rfl, fresh, unlike, unreserved⟩ := ResourceType.of_addOperation added
    refine Eq.trans ?_ (if_pos ⟨unnamed.mpr fresh, unlike, unreserved⟩).symm
    refine congrArg some (congrArg (TypeView.mk t.name t.identifiers (t.load.map Operation.view)) ?_)
    funext other
    rw [Function.update_apply, Keyed.get?_append_new fresh]
    split <;> rfl

/-- What is attached to a type that is not frozen is attached to its view. -/
theorem view_attachTo {t : ResourceType} (loose : t.isFrozen = false) (a : Attachment) :
    (attachTo t a).toOption.map ResourceType.view = t.view.attach a.view := by
  cases a with
  | load o => exact view_setLoad loose o
  | operation name o => exact view_addOperation loose name o

private theorem loose_of_attachTo {t u : ResourceType} {a : Attachment} (attached : attachTo t a = .ok u)
    (loose : t.isFrozen = false) : u.isFrozen = false := by
  cases a with
  | load o =>
    obtain ⟨rfl, _⟩ := ResourceType.of_setLoad attached
    exact loose
  | operation name o =>
    obtain ⟨rfl, _⟩ := ResourceType.of_addOperation attached
    exact loose

/-- At a place of the scope stands the type that is found under the name there. -/
theorem Ready.type_at {scope : Scope} {d : Draft} (ready : Ready scope d)
    (distinct : (Keyed.keys scope).Nodup) {index : Nat} {name : String}
    (label : scope.label (.resource index) = some name) :
    ∃ t, d.types[index]? = some (name, t) ∧ t.isFrozen = false ∧ d.view.types name = some t.view ∧
      ∀ u : ResourceType, (view { d with types := d.types.set index (name, u) }).types =
        Function.update d.view.types name (some u.view) := by
  have names := congrArg (·[index]?) ready.names
  simp only [Keyed.keys, List.getElem?_map] at names
  obtain ⟨⟨key, t⟩, there, key_⟩ := Option.map_eq_some_iff.mp (names.trans label)
  dsimp only at key_
  subst key_
  have apart : (Keyed.keys d.types).Nodup := ready.names ▸ distinct
  refine ⟨t, there, ready.types _ (List.mem_of_getElem? there), ?_, fun u => funext fun other => ?_⟩
  · exact congrArg (Option.map ResourceType.view) (Keyed.get?_of_getElem? apart there)
  · have found := congrArg (Option.map ResourceType.view) (Keyed.get?_set apart there u other)
    refine found.trans ?_
    rw [Function.update_apply]
    split <;> rfl

/-- The site is the root or a type of the scope. -/
def Within (scope : Scope) (site : Site) : Prop := site = .root ∨ (scope.label site).isSome = true

/-- Changing a draft changes its view, where types change as their views do. -/
theorem view_change {scope : Scope} {d : Draft} (ready : Ready scope d)
    (distinct : (Keyed.keys scope).Nodup) {site : Site} (within : Within scope site)
    {f : ResourceType → Except Failure ResourceType} {g : TypeView → Option TypeView}
    (same : ∀ t : ResourceType, t.isFrozen = false → (f t).toOption.map ResourceType.view = g t.view) :
    (d.change site f).toOption.map view = d.view.change (scope.label site) g := by
  cases site with
  | root =>
    have root := same d.root ready.root
    have label : scope.label .root = none := rfl
    have seen : d.view.root = d.root.view := rfl
    rw [label, ModelView.change, seen, ← root]
    unfold change
    cases f d.root <;> rfl
  | resource index =>
    obtain ⟨name, label⟩ := Option.isSome_iff_exists.mp (within.resolve_left (by simp))
    obtain ⟨t, there, loose, seen, changed⟩ := ready.type_at distinct label
    rw [label, ModelView.change, seen, Option.bind_some, ← same t loose]
    unfold change
    simp only [there]
    cases made : f t with
    | error fault => simp [Except.toOption, bind, Except.bind]
    | ok u =>
      have whole : view { d with types := d.types.set index (name, u) } =
          { d.view with types := Function.update d.view.types name (some u.view) } :=
        congrArg (ModelView.mk d.root.view) (changed u)
      simp [Except.toOption, bind, Except.bind, pure, Except.pure, whole]

private theorem loose_of_change {d e : Draft} {site : Site}
    {f : ResourceType → Except Failure ResourceType} (changed : d.change site f = .ok e)
    (loose : ∀ t u : ResourceType, t.isFrozen = false → f t = .ok u → u.isFrozen = false)
    (root : d.root.isFrozen = false) (types : ∀ entry ∈ d.types, entry.2.isFrozen = false) :
    e.root.isFrozen = false ∧ ∀ entry ∈ e.types, entry.2.isFrozen = false := by
  cases site with
  | root =>
    obtain ⟨u, made, changed⟩ := bind_ok.mp changed
    rw [pure_ok] at changed
    subst changed
    exact ⟨loose d.root u root made, types⟩
  | resource index =>
    unfold change at changed
    cases there : d.types[index]? with
    | none =>
      simp only [there, Except.ok.injEq] at changed
      subst changed
      exact ⟨root, types⟩
    | some entry =>
      simp only [there] at changed
      obtain ⟨u, made, changed⟩ := bind_ok.mp changed
      rw [pure_ok] at changed
      subst changed
      refine ⟨root, fun other member => ?_⟩
      rcases List.mem_or_eq_of_mem_set member with old | rfl
      · exact types other old
      · exact loose entry.2 u (types entry (List.mem_of_getElem? there)) made

private theorem ready_of_change {scope : Scope} {d e : Draft} (ready : Ready scope d) {site : Site}
    {f : ResourceType → Except Failure ResourceType} (changed : d.change site f = .ok e)
    (loose : ∀ t u : ResourceType, t.isFrozen = false → f t = .ok u → u.isFrozen = false) :
    Ready scope e := by
  obtain ⟨names, _, _⟩ := of_change changed
  obtain ⟨root, types⟩ := loose_of_change changed loose ready.root ready.types
  exact ⟨names.trans ready.names, root, types⟩

/-! ## Carrying out a plan -/

/-- A step does to the view of a draft what its view does. -/
theorem view_take {scope : Scope} {d : Draft} (ready : Ready scope d)
    (distinct : (Keyed.keys scope).Nodup) (step : Step) (within : Within scope step.site) :
    (d.take step).toOption.map view = d.view.take (step.view scope) := by
  obtain ⟨site, attachment⟩ := step
  cases attachment with
  | error fault => rfl
  | ok a =>
    exact view_change ready distinct within (f := fun t => attachTo t a) (g := fun t => t.attach a.view)
      fun t loose => view_attachTo loose a

theorem ready_of_take {scope : Scope} {d e : Draft} (ready : Ready scope d) {step : Step}
    (taken : d.take step = .ok e) : Ready scope e := by
  obtain ⟨a, _, changed⟩ := bind_ok.mp taken
  exact ready_of_change ready changed fun t u loose attached => loose_of_attachTo attached loose

end Draft

namespace Plan

variable {scope : Scope}

private theorem within_of_mem (placed : scope.Placed) {key : String} {t : TypeSignature}
    (there : (key, t) ∈ scope) : Draft.Within scope t.owner.site :=
  .inr (Option.isSome_iff_exists.mpr ⟨_, label_of_mem placed there⟩)

private theorem within_child (placed : scope.Placed) {key : String} {parent : TypeSignature}
    (there : (key, parent) ∈ scope) {shared : Keyed String} {name : String} :
    ∀ step ∈ child scope parent shared name, Draft.Within scope step.site := by
  intro step member
  unfold child at member
  split at member
  · rw [List.mem_singleton.mp member]
    exact within_of_mem placed there
  · next target found =>
    obtain ⟨_, inside⟩ := Scope.mem_of_lookup found
    rcases List.mem_cons.mp member with rfl | member
    · exact within_of_mem placed there
    · rw [List.mem_singleton.mp member]
      exact within_of_mem placed inside

/-- Every step of a plan is about the root or a type of the scope. -/
theorem within_ofDocument (d : Document) (service : String) (placed : scope.Placed) :
    ∀ step ∈ ofDocument d service scope, Draft.Within scope step.site := by
  intro step member
  have inside : ∀ {side}, side ∈ (scope.map Prod.snd).zip (d.resources.map Prod.snd) →
      ∃ name, (name, side.1) ∈ scope := by
    intro side both
    obtain ⟨⟨name, _⟩, entry, rfl⟩ := List.mem_map.mp (List.of_mem_zip both).1
    exact ⟨name, entry⟩
  simp only [ofDocument, List.mem_append] at member
  rcases member with ((loads | served) | owned) | shared
  · obtain ⟨side, both, loads⟩ := List.mem_flatMap.mp loads
    obtain ⟨rule, _, rfl⟩ := List.mem_map.mp loads
    obtain ⟨name, there⟩ := inside both
    exact within_of_mem placed there
  · rw [site_of_container step served]
    exact .inl rfl
  · obtain ⟨side, both, owned⟩ := List.mem_flatMap.mp owned
    obtain ⟨name, there⟩ := inside both
    rw [site_of_container step owned]
    exact within_of_mem placed there
  · obtain ⟨side, both, families⟩ := List.mem_flatMap.mp shared
    obtain ⟨family, _, siblings⟩ := List.mem_flatMap.mp families
    obtain ⟨child, _, steps⟩ := List.mem_flatMap.mp siblings
    obtain ⟨name, there⟩ := inside both
    exact within_child placed there step steps

end Plan

namespace Draft

variable {scope : Scope} {d : Draft}

/-- Carrying out steps does to the view of a draft what their views do. -/
theorem view_takes (ready : Ready scope d) (distinct : (Keyed.keys scope).Nodup) {steps : List Step}
    (within : ∀ step ∈ steps, Within scope step.site) :
    (steps.foldlM take d).toOption.map view =
      (steps.map (Step.view scope)).foldlM ModelView.take d.view :=
  toOption_foldlM (Step.view scope) (Ready scope)
    (fun _ _ _ _ before taken => ready_of_take before taken)
    (fun step member _ before => view_take before distinct step (within step member)) ready

theorem ready_of_takes {e : Draft} (ready : Ready scope d) {steps : List Step}
    (ran : steps.foldlM take d = .ok e) : Ready scope e :=
  foldlM_keeps (Ready scope) (fun _ _ _ _ before taken => ready_of_take before taken) ready ran

/-! ## Exposing types -/

/-- The step that attaches the reference of the root to a type. -/
def exposureStep (type : TypeSignature) : Step :=
  ⟨.root, (Plan.related type []).map (.operation (snakeCase type.ref.name))⟩

/-- Exposing a type is a step of its own, unless there is nothing to expose. -/
theorem expose_eq_take (type : TypeSignature) :
    d.expose type =
      if 1 < type.identifiers.length || Keyed.has d.root.operations (snakeCase type.ref.name) then .ok d
      else d.take (exposureStep type) := by
  unfold expose exposureStep take
  dsimp only
  split
  · rfl
  · cases Plan.related type [] <;> rfl

private theorem view_exposureStep (type : TypeSignature) :
    (exposureStep type).view scope = type.exposure.step := by
  unfold exposureStep Step.view Exposure.step TypeSignature.exposure
  cases Plan.related type [] <;> rfl

/-- Exposing a type does to the view what its exposure does. -/
theorem view_expose (ready : Ready scope d) (distinct : (Keyed.keys scope).Nodup)
    (type : TypeSignature) :
    (d.expose type).toOption.map view = d.view.expose type.exposure := by
  have there : Keyed.has d.root.operations (snakeCase type.ref.name) = true ↔
      d.view.root.operations (snakeCase type.ref.name) ≠ none := by
    rw [Keyed.has_iff, ← not_iff_not, not_not, ← Keyed.get?_eq_none_iff]
    exact Option.map_eq_none_iff.symm
  have taken := view_take ready distinct (exposureStep type) (.inl rfl)
  rw [view_exposureStep] at taken
  rw [expose_eq_take, ModelView.expose, ← taken]
  by_cases skipped : 1 < type.exposure.count ∨ d.view.root.operations type.exposure.name ≠ none
  · rw [if_pos skipped, if_pos]
    · rfl
    · rw [Bool.or_eq_true, decide_eq_true_iff, there]
      exact skipped
  · rw [if_neg skipped, if_neg]
    rw [Bool.or_eq_true, decide_eq_true_iff, there]
    exact skipped

private theorem ready_of_expose {e : Draft} (ready : Ready scope d) {type : TypeSignature}
    (exposed : d.expose type = .ok e) : Ready scope e := by
  rw [expose_eq_take] at exposed
  split at exposed
  · cases exposed
    exact ready
  · exact ready_of_take ready exposed

/-- Exposing types does to the view of a draft what their exposures do. -/
theorem view_exposes (ready : Ready scope d) (distinct : (Keyed.keys scope).Nodup)
    (types : List TypeSignature) :
    (types.foldlM expose d).toOption.map view =
      (types.map TypeSignature.exposure).foldlM ModelView.expose d.view :=
  toOption_foldlM TypeSignature.exposure (Ready scope)
    (fun _ _ _ _ before exposed => ready_of_expose before exposed)
    (fun type _ _ before => view_expose before distinct type) ready

end Draft

end ResourceGraph
