import ResourceGraph.Document.Lint
import ResourceGraph.Proofs.Declaration

/-!
What projections of accepted documents write: texts, whole numbers and truth values. A float without
a fraction is read as the whole number, and anything else is refused; the fact is carried from the
reader of one source through the readers of all the rules that hold requests.
-/

namespace ResourceGraph

/-- A text, a whole number or a truth value. -/
inductive Value.IsLiteral : Json → Prop
  | text (s : String) : IsLiteral (.str s)
  | number (n : Int) : IsLiteral (.int n)
  | flag (b : Bool) : IsLiteral (.bool b)

/-- Every projection of the request writes a literal. -/
def RequestRule.Literal (r : RequestRule) : Prop := ∀ p ∈ r.params, p.source.IsLiteral

/-- Every projection of the call's request writes a literal. -/
def CallRule.Literal (c : CallRule) : Prop := c.request.Literal

namespace Check

open Checked

/-- A source is a literal: a float without a fraction counts as the whole number. -/
theorem literal_paramSource (given : Json) : (paramSource given).Grants Value.IsLiteral := by
  unfold paramSource
  split
  · exact grants_accepted (.text _)
  · exact grants_accepted (.number _)
  · exact grants_accepted (.flag _)
  · dsimp only
    split
    · exact grants_rejected
    · split
      · exact grants_rejected
      · split
        · exact grants_accepted (.number _)
        · exact grants_rejected
  · exact grants_rejected

private theorem literal_param (given : Json) : (param given).Grants fun p => p.source.IsLiteral := by
  refine grants_model _ (fun fields p accepts => ?_) given
  simp only [seq_accepted, map_accepted] at accepts
  obtain ⟨_, source, ⟨_, _, ⟨_, _, rfl⟩, _, rfl⟩, read, rfl⟩ := accepts
  exact grants_required literal_paramSource source read

theorem literal_request (given : Json) : (request given).Grants RequestRule.Literal := by
  refine grants_model _ (fun fields r accepts => ?_) given
  simp only [seq_accepted, map_accepted] at accepts
  obtain ⟨_, params, ⟨_, _, rfl⟩, listed, rfl⟩ := accepts
  exact grants_optional (by simp) (fun v => grants_list literal_param v) params listed

private theorem literal_load (given : Json) : (load given).Grants fun l => l.request.Literal := by
  refine grants_model _ (fun fields l accepts => ?_) given
  simp only [seq_accepted, map_accepted] at accepts
  obtain ⟨_, _, ⟨asked, read, rfl⟩, _, rfl⟩ := accepts
  exact grants_required literal_request asked read

private theorem literal_action (given : Json) : (action given).Grants fun a => a.request.Literal := by
  refine grants_andThen fun a accepts => ?_
  have plain : a.request.Literal := by
    refine grants_model (fun a => a.request.Literal) (fun fields r accepts => ?_) given a accepts
    simp only [seq_accepted, map_accepted] at accepts
    obtain ⟨_, _, ⟨_, _, ⟨asked, read, rfl⟩, _, rfl⟩, _, rfl⟩ := accepts
    exact grants_required literal_request asked read
  unfold actionShape
  split
  · exact grants_rejected
  · split
    · exact grants_rejected
    · exact grants_accepted plain
  · exact grants_accepted plain

private theorem literal_call (given : Json) : (call given).Grants CallRule.Literal := by
  refine grants_model _ (fun fields c accepts => ?_) given
  simp only [seq_accepted, map_accepted] at accepts
  obtain ⟨_, _, ⟨asked, read, rfl⟩, _, rfl⟩ := accepts
  exact grants_required literal_request asked read

private theorem literal_hasMany (given : Json) :
    (hasMany given).Grants fun h => ∀ c ∈ h.enumerate.toList ++ h.create.toList, CallRule.Literal c := by
  refine grants_model _ (fun fields h accepts => ?_) given
  simp only [seq_accepted, map_accepted] at accepts
  obtain ⟨_, _, ⟨_, create, ⟨_, enumerate, ⟨_, _, rfl⟩, listed, rfl⟩, created, rfl⟩, _, rfl⟩ := accepts
  have lists := grants_optional (by simp) (fun v => grants_nullable literal_call v) enumerate listed
  have creates := grants_optional (by simp) (fun v => grants_nullable literal_call v) create created
  intro c member
  rcases List.mem_append.mp member with one | one
  · exact lists c (Option.mem_toList.mp one)
  · exact creates c (Option.mem_toList.mp one)

private theorem literal_containerRules (fields : Keyed Json) :
    (containerRules fields).Grants fun rules => ∀ r ∈ rules.requests, r.Literal := by
  intro rules accepts
  simp only [containerRules, seq_accepted, map_accepted] at accepts
  obtain ⟨_, _, ⟨_, _, ⟨_, many, ⟨actions, acts, rfl⟩, manys, rfl⟩, _, rfl⟩, _, rfl⟩ := accepts
  have acted := grants_optional (by simp) (fun v => grants_keyed literal_action v) actions acts
  have called := grants_optional (by simp) (fun v => grants_keyed literal_hasMany v) many manys
  intro r member
  rcases List.mem_append.mp member with one | one
  · obtain ⟨entry, there, rfl⟩ := List.mem_map.mp one
    exact acted entry there
  · obtain ⟨entry, there, within⟩ := List.mem_flatMap.mp one
    obtain ⟨c, given, rfl⟩ := List.mem_map.mp within
    exact called entry there c given

private theorem literal_resource (given : Json) : (resource given).Grants fun rules =>
    ∀ r ∈ (rules.load.toList.map fun rule => rule.request) ++ rules.container.requests, r.Literal := by
  refine grants_model _ (fun fields rules accepts => ?_) given
  simp only [seq_accepted, map_accepted] at accepts
  obtain ⟨_, _, ⟨_, load, ⟨_, _, ⟨_, _, ⟨rules, read, rfl⟩, _, rfl⟩, _, rfl⟩, loaded, rfl⟩, _,
    rfl⟩ := accepts
  have asked := grants_optional (by simp) (fun v => grants_nullable literal_load v) load loaded
  intro r member
  rcases List.mem_append.mp member with one | one
  · obtain ⟨rule, given, rfl⟩ := List.mem_map.mp one
    exact asked rule (Option.mem_toList.mp given)
  · exact literal_containerRules fields rules read r one

end Check

/-- Every projection of a document that was read writes a literal. -/
theorem Document.literal_of_read {given : Json} {d : Document}
    (read : Document.read given = .accepted d) : ∀ r ∈ d.requests, r.Literal := by
  refine Check.grants_model (fun d : Document => ∀ r ∈ d.requests, r.Literal)
    (fun fields d accepts => ?_)
    given d read
  simp only [Checked.seq_accepted, Checked.map_accepted] at accepts
  obtain ⟨_, resources, ⟨service, served, rfl⟩, named, rfl⟩ := accepts
  have own := Check.grants_optional
    (by simp [ContainerRules.requests])
    (fun v => Check.grants_model _ Check.literal_containerRules v) service served
  have others := Check.grants_optional (by simp) (fun v => Check.grants_keyed Check.literal_resource v)
    resources named
  intro r member
  rcases List.mem_append.mp member with one | one
  · exact own r one
  · obtain ⟨entry, there, within⟩ := List.mem_flatMap.mp one
    exact others entry there r within

end ResourceGraph
