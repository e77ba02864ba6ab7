import Mathlib
import ResourceGraph.Proofs.ModelSoundness

/-!
What is well formed about a compiled model, said of the model alone: every name that an operation
uses is declared by the type it is looked up in. The scope in which the rules were compiled does not
occur here; `Model.wellFormed_of_compile` speaks of every document that is accepted.
-/

namespace ResourceGraph

/-- A builder that a type of the model may have, given the identifiers of that type. Its target is a
type of the model, and it gives exactly the identifiers of its target. -/
structure Builder.WellFormed (m : Model) (declared : List String) (b : Builder) : Prop where
  target : ∃ type, m.types[b.target.index]? = some (b.target.name, type) ∧ b.Covers type.identifiers
  reads : b.ReadsDeclared declared
  argument : b.ArgumentLast

/-- An operation that a type of the model may have, given the identifiers of that type. -/
structure Operation.WellFormed (m : Model) (declared : List String) (o : Operation) : Prop where
  request : ∀ r, o.request? = some r → r.ReadsDeclared declared
  builder : ∀ b, o.builder? = some b → b.WellFormed m declared
  reference : o.kind = .reference → ∀ b, o.builder? = some b → b.readsResponse = false
  enumeration : o.kind = .enumerateResource → ∀ b, o.builder? = some b → b.isPlural = true

/-- A type of the model, closed for changes. -/
structure ResourceType.WellFormed (m : Model) (t : ResourceType) : Prop where
  frozen : t.isFrozen = true
  names : t.NamesApart
  operations : ∀ entry ∈ t.operations, entry.2.WellFormed m t.identifiers
  load : ∀ o, t.load = some o → o.WellFormed m t.identifiers

/-- Every type of the model is well formed, the root included. -/
structure Model.WellFormed (m : Model) : Prop where
  root : m.root.WellFormed m
  types : ∀ entry ∈ m.types, entry.2.WellFormed m

namespace Model.Sound

variable {m : Model} {scope : Scope} {declared : List String}

private theorem builder (sound : m.Sound scope) {b : Builder} (made : b.Sound scope declared) :
    b.WellFormed m declared := by
  obtain ⟨entry, there, target, covers⟩ := made.target
  obtain ⟨type, found, same⟩ := sound.located entry there
  refine ⟨⟨type, ?_, ?_⟩, made.reads, made.argument⟩
  · rw [target]
    exact found
  · rw [same]
    exact covers

private theorem operation (sound : m.Sound scope) {o : Operation} (made : o.Sound scope declared) :
    o.WellFormed m declared :=
  ⟨made.request, fun b has => sound.builder (made.builder b has), made.reference, made.enumeration⟩

private theorem type (sound : m.Sound scope) {t : ResourceType} (made : t.Sound scope) :
    t.WellFormed m where
  frozen := made.frozen
  names := made.names
  operations entry member := sound.operation (made.operations entry member)
  load o set := sound.operation (made.load o set).1

/-- A model that was made soundly in a scope is well formed without it. -/
theorem wellFormed (sound : m.Sound scope) : m.WellFormed :=
  ⟨sound.type sound.root, fun entry member => sound.type (sound.types entry member)⟩

end Model.Sound

namespace Model

/-- A document that compiles was accepted, and no source of it takes the argument of a call. -/
theorem declared_of_compile {given : Json} {service : String} {factory : Option Nat} {m : Model}
    (compiled : compile given service factory = .ok m) :
    ∃ d, Document.read given = .accepted d ∧ d.Declared ∧ ofDocument d service factory = .ok m := by
  unfold compile at compiled
  split at compiled
  · next d read => exact ⟨d, read, Document.declared_of_read read, compiled⟩
  · cases compiled

/-- **Compiled models are well formed**, and every `hasOne` rule of the service and of the types has
become a reference that gives one resource. -/
theorem wellFormed_of_compile {given : Json} {service : String} {factory : Option Nat} {m : Model}
    (compiled : compile given service factory = .ok m) :
    m.WellFormed ∧ ∃ d, Document.read given = .accepted d ∧ m.root.HasSingle d.service ∧
      ∀ (index : Nat) name rules, d.resources[index]? = some (name, rules) →
        ∃ t, m.types[index]? = some (name, t) ∧ t.HasSingle rules.container := by
  obtain ⟨d, read, declared, made⟩ := declared_of_compile compiled
  obtain ⟨scope, sound, single, types⟩ := sound_of_document declared made
  exact ⟨sound.wellFormed, d, read, single, types⟩

/-- A document with a type that refers to itself. -/
def selfReferring : Json :=
  .object [("resources", .object [("user", .object [("identifiers", .list [.str "name"]),
    ("hasOne", .object [("boss", .object [("type", .str "user"), ("resource", .object [("identifiers",
      .list [.object [("target", .str "name"), ("sourceType", .str "identifier"),
        ("source", .str "name")]])])])])])])]

set_option maxRecDepth 100000 in
/-- The model of a type that refers to itself. -/
theorem wellFormed_selfReferring : ∃ m, compile selfReferring "team" none = .ok m ∧ m.WellFormed := by
  have compiles : (compile selfReferring "team" none).toOption.isSome = true := by cbv
  cases made : compile selfReferring "team" none with
  | error fault => simp [made, Except.toOption] at compiles
  | ok m => exact ⟨m, rfl, (wellFormed_of_compile made).1⟩

end Model

end ResourceGraph
