import ResourceGraph.Document.Check

/-!
What accepted documents declare. An identifier source of a document names one of the kinds that can
be declared, so that an argument only ever stands where a builder leaves an identifier open. The
fact is carried from the reader of one source through the readers of all the rules that hold
sources. An action that builds resources says of which type they are, and this is carried in the
same way.
-/

namespace ResourceGraph

variable {α β : Type}

/-- Whatever the check accepts has a property. -/
def Checked.Grants (holds : α → Prop) (c : Checked α) : Prop := ∀ a, c = .accepted a → holds a

namespace Checked

theorem grants_accepted {holds : α → Prop} {a : α} (h : holds a) : (accepted a).Grants holds := by
  intro b same
  cases same
  exact h

theorem grants_rejected {holds : α → Prop} {findings : List Finding} :
    (rejected findings).Grants holds := by
  intro b same
  cases same

theorem grants_under {holds : α → Prop} {c : Checked α} {segment : String}
    (h : c.Grants holds) : (c.under segment).Grants holds := by
  cases c with
  | accepted a => exact h
  | rejected findings => exact grants_rejected

private theorem grants_withFindings {holds : α → Prop} {c : Checked α} {more : List Finding}
    (h : c.Grants holds) : (c.withFindings more).Grants holds := by
  cases c with
  | accepted a =>
    cases more with
    | nil => exact h
    | cons finding rest => exact grants_rejected
  | rejected findings => exact grants_rejected

theorem grants_andThen {holds : β → Prop} {c : Checked α} {check : α → Checked β}
    (h : ∀ a, c = .accepted a → (check a).Grants holds) : (c.andThen check).Grants holds := by
  cases c with
  | accepted a => exact h a rfl
  | rejected findings => exact grants_rejected

private theorem grants_map {holds : α → Prop} {keeps : β → Prop} {c : Checked α} {f : α → β}
    (h : c.Grants holds) (made : ∀ a, holds a → keeps (f a)) : (f <$> c).Grants keeps := by
  cases c with
  | accepted a => exact grants_accepted (made a (h a rfl))
  | rejected findings => exact grants_rejected

theorem map_accepted {c : Checked α} {f : α → β} {b : β} :
    f <$> c = accepted b ↔ ∃ a, c = accepted a ∧ f a = b := by
  cases c <;> simp [Functor.map, Checked.map]

/-- Checks side by side accept what each of them accepts. -/
theorem seq_accepted {f : Checked (α → β)} {c : Checked α} {b : β} :
    f <*> c = accepted b ↔ ∃ g a, f = accepted g ∧ c = accepted a ∧ g a = b := by
  cases f <;> cases c <;> simp [Seq.seq, apply]

end Checked

namespace Check

open Checked

theorem grants_required {holds : α → Prop} {fields : Keyed Json} {k : Key} {check : Json → Checked α}
    (h : ∀ v, (check v).Grants holds) : (required fields k check).Grants holds := by
  unfold required
  split
  · exact grants_under (h _)
  · exact grants_under grants_rejected

theorem grants_optional {holds : α → Prop} {fields : Keyed Json} {k : Key} {absent : α}
    {check : Json → Checked α} (missing : holds absent) (h : ∀ v, (check v).Grants holds) :
    (optional fields k absent check).Grants holds := by
  unfold optional
  split
  · exact grants_under (h _)
  · exact grants_accepted missing

theorem grants_model (holds : α → Prop) {name : String} {keys : List Key}
    {read : Keyed Json → Checked α} (h : ∀ fields, (read fields).Grants holds) (given : Json) :
    (model name keys read given).Grants holds := by
  unfold model
  split
  · exact grants_withFindings (h _)
  · exact grants_rejected

theorem grants_nullable {holds : α → Prop} {check : Json → Checked α}
    (h : ∀ v, (check v).Grants holds) (given : Json) :
    (nullable check given).Grants fun found => ∀ a, found = some a → holds a := by
  unfold nullable
  split
  · exact grants_accepted (by simp)
  · exact grants_map (h _) (by simp)

private theorem grants_itemsFrom {holds : α → Prop} {check : Json → Checked α}
    (h : ∀ v, (check v).Grants holds) (place : Nat) (items : List Json) :
    (itemsFrom check place items).Grants fun found => ∀ a ∈ found, holds a := by
  induction items generalizing place with
  | nil => exact grants_accepted (by simp)
  | cons item rest ih =>
    intro found accepts
    simp only [itemsFrom, seq_accepted, map_accepted] at accepts
    obtain ⟨_, others, ⟨first, head, rfl⟩, tail, rfl⟩ := accepts
    simpa [grants_under (h item) first head] using ih (place + 1) others tail

theorem grants_list {holds : α → Prop} {check : Json → Checked α}
    (h : ∀ v, (check v).Grants holds) (given : Json) :
    (list check given).Grants fun found => ∀ a ∈ found, holds a := by
  unfold list
  split
  · exact grants_itemsFrom h 0 _
  · exact grants_rejected

private theorem grants_entries {holds : α → Prop} {check : Json → Checked α}
    (h : ∀ v, (check v).Grants holds) (fields : List (String × Json)) :
    (entries check fields).Grants fun found => ∀ entry ∈ found, holds entry.2 := by
  induction fields with
  | nil => exact grants_accepted (by simp)
  | cons field rest ih =>
    obtain ⟨name, value⟩ := field
    intro found accepts
    simp only [entries, seq_accepted, map_accepted] at accepts
    obtain ⟨_, others, ⟨first, head, rfl⟩, tail, rfl⟩ := accepts
    simpa [grants_under (h value) first head] using ih others tail

theorem grants_keyed {holds : α → Prop} {check : Json → Checked α}
    (h : ∀ v, (check v).Grants holds) (given : Json) :
    (map check given).Grants fun found => ∀ entry ∈ found, holds entry.2 := by
  unfold map
  split
  · exact grants_entries h _
  · exact grants_rejected

/-- A name out of a list of alternatives means one of them. -/
theorem grants_oneOf (names : List (String × α)) (given : Json) :
    (oneOf names given).Grants fun a => a ∈ names.map Prod.snd := by
  unfold oneOf
  dsimp only
  split
  · split
    · next s a found =>
      refine grants_accepted ?_
      obtain ⟨before, after, split, _⟩ := List.lookup_eq_some_iff.mp found
      simp [split]
    · exact grants_rejected
  · exact grants_rejected

end Check

/-- No source of the rule names an argument. -/
def BuildRule.Declared (r : BuildRule) : Prop := ∀ s ∈ r.identifiers, s.kind ≠ .argument

/-- An absent rule, or one that names no argument. -/
def BuildRule.DeclaredIfAny (r : Option BuildRule) : Prop := ∀ b, r = some b → b.Declared

/-- The calls of an association name no argument. -/
def CallRule.DeclaredIfAny (r : Option CallRule) : Prop := ∀ c, r = some c → c.resource.Declared

/-- No part of the association names an argument. -/
structure HasManyRule.Declared (r : HasManyRule) : Prop where
  enumerate : CallRule.DeclaredIfAny r.enumerate
  create : CallRule.DeclaredIfAny r.create
  resource : BuildRule.DeclaredIfAny r.resource

/-- No rule of the container names an argument. -/
structure ContainerRules.Declared (r : ContainerRules) : Prop where
  actions : ∀ entry ∈ r.actions, BuildRule.DeclaredIfAny entry.2.resource
  hasMany : ∀ entry ∈ r.hasMany, entry.2.Declared
  hasSome : ∀ entry ∈ r.hasSome, entry.2.resource.Declared
  hasOne : ∀ entry ∈ r.hasOne, entry.2.resource.Declared

/-- No rule of the document names an argument. -/
structure Document.Declared (d : Document) : Prop where
  service : d.service.Declared
  resources : ∀ entry ∈ d.resources, entry.2.container.Declared

/-- An action that builds resources says of which type they are. -/
def ActionRule.Typed (a : ActionRule) : Prop := ∀ build, a.resource = some build → build.type ≠ none

/-- The actions of the container say of which types their resources are. -/
def ContainerRules.Typed (r : ContainerRules) : Prop := ∀ entry ∈ r.actions, entry.2.Typed

/-- All actions of the document say of which types their resources are. -/
structure Document.Typed (d : Document) : Prop where
  service : d.service.Typed
  resources : ∀ entry ∈ d.resources, entry.2.container.Typed

theorem ContainerRules.declared_empty : ContainerRules.Declared {} := by
  constructor <;> simp

namespace Check

open Checked

private theorem grants_source (given : Json) : (source given).Grants fun s => s.kind ≠ .argument := by
  refine grants_model _ (fun fields s accepts => ?_) given
  simp only [seq_accepted, map_accepted] at accepts
  obtain ⟨_, _, ⟨_, kind, ⟨_, _, rfl⟩, named, rfl⟩, _, rfl⟩ := accepts
  have declarable := grants_required (fun v => grants_oneOf _ v) kind named
  revert declarable
  cases kind <;> simp [SourceKind.declarable]

theorem grants_build (given : Json) : (build given).Grants BuildRule.Declared := by
  refine grants_model _ (fun fields r accepts => ?_) given
  simp only [seq_accepted, map_accepted] at accepts
  obtain ⟨_, _, ⟨_, sources, ⟨_, _, rfl⟩, listed, rfl⟩, _, rfl⟩ := accepts
  exact grants_optional (by simp) (fun v => grants_list grants_source v) sources listed

private theorem grants_action (given : Json) :
    (action given).Grants fun a => BuildRule.DeclaredIfAny a.resource := by
  refine grants_andThen fun a accepts => ?_
  have declared : BuildRule.DeclaredIfAny a.resource := by
    refine grants_model (fun a => BuildRule.DeclaredIfAny a.resource) (fun fields r accepts => ?_)
      given a accepts
    simp only [seq_accepted, map_accepted] at accepts
    obtain ⟨_, resource, ⟨_, _, ⟨_, _, rfl⟩, _, rfl⟩, built, rfl⟩ := accepts
    exact grants_optional (by simp) (fun v => grants_nullable grants_build v) resource built
  unfold actionShape
  split
  · exact grants_rejected
  · split
    · exact grants_rejected
    · exact grants_accepted declared
  · exact grants_accepted declared

private theorem grants_call (given : Json) : (call given).Grants fun c => c.resource.Declared := by
  refine grants_model _ (fun fields r accepts => ?_) given
  simp only [seq_accepted, map_accepted] at accepts
  obtain ⟨_, resource, ⟨_, _, rfl⟩, built, rfl⟩ := accepts
  exact grants_optional (by simp [BuildRule.Declared]) grants_build resource built

private theorem grants_hasMany (given : Json) : (hasMany given).Grants HasManyRule.Declared := by
  refine grants_model _ (fun fields r accepts => ?_) given
  simp only [seq_accepted, map_accepted] at accepts
  obtain ⟨_, resource, ⟨_, create, ⟨_, enumerate, ⟨_, _, rfl⟩, listed, rfl⟩, created, rfl⟩,
    built, rfl⟩ :=
    accepts
  exact ⟨grants_optional (by simp) (fun v => grants_nullable grants_call v) enumerate listed,
    grants_optional (by simp) (fun v => grants_nullable grants_call v) create created,
    grants_optional (by simp) (fun v => grants_nullable grants_build v) resource built⟩

private theorem grants_association (given : Json) :
    (association given).Grants fun r => r.resource.Declared := by
  refine grants_model _ (fun fields r accepts => ?_) given
  simp only [seq_accepted, map_accepted] at accepts
  obtain ⟨_, resource, ⟨_, _, rfl⟩, built, rfl⟩ := accepts
  exact grants_optional (by simp [BuildRule.Declared]) grants_build resource built

private theorem grants_containerRules (fields : Keyed Json) :
    (containerRules fields).Grants ContainerRules.Declared := by
  intro r accepts
  simp only [containerRules, seq_accepted, map_accepted] at accepts
  obtain ⟨_, hasOne, ⟨_, hasSome, ⟨_, many, ⟨actions, acts, rfl⟩, manys, rfl⟩, somes, rfl⟩, ones, rfl⟩ :=
    accepts
  exact ⟨grants_optional (by simp) (fun v => grants_keyed grants_action v) actions acts,
    grants_optional (by simp) (fun v => grants_keyed grants_hasMany v) many manys,
    grants_optional (by simp) (fun v => grants_keyed grants_association v) hasSome somes,
    grants_optional (by simp) (fun v => grants_keyed grants_association v) hasOne ones⟩

private theorem grants_resource (given : Json) :
    (resource given).Grants fun r => r.container.Declared := by
  refine grants_model _ (fun fields r accepts => ?_) given
  simp only [seq_accepted, map_accepted] at accepts
  obtain ⟨_, _, ⟨_, _, ⟨_, _, ⟨_, _, ⟨rules, read, rfl⟩, _, rfl⟩, _, rfl⟩, _, rfl⟩, _, rfl⟩ := accepts
  exact grants_containerRules fields rules read

private theorem typed_action (given : Json) : (action given).Grants ActionRule.Typed := by
  refine grants_andThen fun a _ => ?_
  unfold actionShape
  split
  · exact grants_rejected
  · next build _ written =>
    split
    · exact grants_rejected
    · next typed =>
      refine grants_accepted fun other same => ?_
      obtain rfl := Option.some.inj (written.symm.trans same)
      exact fun absent => typed (by simp [absent])
  · next written => exact grants_accepted (by simp [ActionRule.Typed, written])

private theorem typed_containerRules (fields : Keyed Json) :
    (containerRules fields).Grants ContainerRules.Typed := by
  intro r accepts
  simp only [containerRules, seq_accepted, map_accepted] at accepts
  obtain ⟨_, _, ⟨_, _, ⟨_, _, ⟨actions, acts, rfl⟩, _, rfl⟩, _, rfl⟩, _, rfl⟩ := accepts
  exact grants_optional (by simp) (fun v => grants_keyed typed_action v) actions acts

private theorem typed_resource (given : Json) : (resource given).Grants fun r => r.container.Typed := by
  refine grants_model _ (fun fields r accepts => ?_) given
  simp only [seq_accepted, map_accepted] at accepts
  obtain ⟨_, _, ⟨_, _, ⟨_, _, ⟨_, _, ⟨rules, read, rfl⟩, _, rfl⟩, _, rfl⟩, _, rfl⟩, _, rfl⟩ := accepts
  exact typed_containerRules fields rules read

end Check

/-- In a document that was read no source names an argument. -/
theorem Document.declared_of_read {given : Json} {d : Document}
    (read : Document.read given = .accepted d) : d.Declared := by
  refine Check.grants_model _ (fun fields d accepts => ?_) given d read
  simp only [Checked.seq_accepted, Checked.map_accepted] at accepts
  obtain ⟨_, resources, ⟨service, served, rfl⟩, named, rfl⟩ := accepts
  refine ⟨?_, ?_⟩
  · exact Check.grants_optional ContainerRules.declared_empty
      (fun v => Check.grants_model _ Check.grants_containerRules v) service served
  · exact Check.grants_optional (by simp) (fun v => Check.grants_keyed Check.grants_resource v)
      resources named

/-- In a document that was read every action that builds resources says of which type. -/
theorem Document.typed_of_read {given : Json} {d : Document}
    (read : Document.read given = .accepted d) : d.Typed := by
  refine Check.grants_model _ (fun fields d accepts => ?_) given d read
  simp only [Checked.seq_accepted, Checked.map_accepted] at accepts
  obtain ⟨_, resources, ⟨service, served, rfl⟩, named, rfl⟩ := accepts
  refine ⟨?_, ?_⟩
  · exact Check.grants_optional (by simp [ContainerRules.Typed])
      (fun v => Check.grants_model _ Check.typed_containerRules v) service served
  · exact Check.grants_optional (by simp) (fun v => Check.grants_keyed Check.typed_resource v)
      resources named

end ResourceGraph
