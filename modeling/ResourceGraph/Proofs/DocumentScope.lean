import ResourceGraph.Proofs.ModelSoundness

/-!
The scope of a document: its types, each at the place that its name has in the document and with the
identifiers declared there. So types and rules side by side are the entries of the document.
-/

namespace ResourceGraph

open Naming Outcome

/-- The scope has the types of the document, at their places and with their identifiers. -/
structure Scope.Of (d : Document) (scope : Scope) : Prop where
  placed : scope.Placed
  entries : scope.map (fun entry => (entry.1, entry.2.identifiers)) =
    d.resources.map fun entry => (entry.1, entry.2.identifiers.map snakeCase)

namespace Keyed

variable {α β : Type}

private theorem indexOf?_congr {m : Keyed α} {n : Keyed β} (same : keys m = keys n) (key : String) :
    indexOf? m key = indexOf? n key := by
  induction m generalizing n with
  | nil =>
    cases n with
    | nil => rfl
    | cons entry rest => cases same
  | cons entry rest ih =>
    cases n with
    | nil => cases same
    | cons entry' rest' =>
      obtain ⟨first, others⟩ := List.cons.inj same
      simp only [indexOf?]
      rw [first, ih others]

private theorem indexOf?_of_get? {m : Keyed α} {key : String} {value : α}
    (found : get? m key = some value) :
    ∃ index, indexOf? m key = some index ∧ m[index]? = some (key, value) := by
  induction m with
  | nil => cases found
  | cons entry rest ih =>
    obtain ⟨k, a⟩ := entry
    by_cases same : k = key
    · subst same
      simp only [get?, if_pos, Option.some.injEq] at found
      subst found
      exact ⟨0, by simp [indexOf?], rfl⟩
    · rw [get?, if_neg same] at found
      obtain ⟨index, place, there⟩ := ih found
      exact ⟨index + 1, by simp [indexOf?, same, place], there⟩

end Keyed

namespace Scope.Of

variable {d : Document} {scope : Scope} {owner : Owner} {target : TypeSignature}

theorem keys (same : Scope.Of d scope) : Keyed.keys scope = Keyed.keys d.resources := by
  have names := congrArg (List.map Prod.fst) same.entries
  simpa [Keyed.keys, Function.comp_def] using names

/-- A type is found at the place that its name has in the document. -/
theorem index_of_lookup (same : Scope.Of d scope) {rule name : String}
    (found : scope.lookup owner rule (some name) = .ok target) :
    Keyed.indexOf? d.resources name = some target.ref.index := by
  unfold Scope.lookup at found
  dsimp only at found
  split at found
  · next type there =>
    cases found
    obtain ⟨index, place, here⟩ := Keyed.indexOf?_of_get? there
    rw [← Keyed.indexOf?_congr same.keys, place, same.placed index _ here]
  · cases found

/-- The types are those that the document declares, in its order. -/
theorem signatures (same : Scope.Of d scope) :
    (scope.map Prod.snd).map (fun type => (type.ref.name, type.identifiers)) =
      d.resources.map fun entry => (entry.1, entry.2.identifiers.map snakeCase) := by
  rw [← same.entries, List.map_map]
  refine List.map_congr_left fun entry member => ?_
  obtain ⟨index, found⟩ := List.mem_iff_getElem?.mp member
  rw [Function.comp_apply, same.placed index entry found]

/-- Types and rules side by side are the entries of the document with their places. -/
theorem sides (same : Scope.Of d scope) :
    (scope.map Prod.snd).zip (d.resources.map Prod.snd) = d.resources.zipIdx.map fun entry =>
      (⟨⟨entry.2, entry.1.1⟩, entry.1.2.identifiers.map snakeCase⟩, entry.1.2) := by
  refine List.ext_getElem? fun index => ?_
  have entry := congrArg (·[index]?) same.entries
  simp only [List.getElem?_map] at entry
  simp only [List.getElem?_map, List.getElem?_zipIdx, List.zip, List.getElem?_zipWith]
  cases written : d.resources[index]? with
  | none => cases scope[index]? <;> rfl
  | some rules =>
    cases there : scope[index]? with
    | none => simp [written, there] at entry
    | some type =>
      simp only [written, there, Option.map_some, Option.some.injEq, Prod.mk.injEq] at entry
      obtain ⟨key, ref, identifiers⟩ := type
      have place : ref = ⟨index, key⟩ := same.placed index _ there
      simp_all

/-- What goes through types and rules side by side goes through the entries of the document. -/
theorem flatMap_sides {α : Type} (same : Scope.Of d scope) (f : TypeRef → ResourceRules → List α) :
    (((scope.map Prod.snd).zip (d.resources.map Prod.snd)).flatMap fun side => f side.1.ref side.2) =
      d.resources.zipIdx.flatMap fun entry => f ⟨entry.2, entry.1.1⟩ entry.1.2 := by
  rw [same.sides, List.flatMap_map]

end Scope.Of

/-- Bare types make the scope of their document. -/
theorem Model.scope_of_bareTypes {d : Document} {factory : Option Nat} {bares : Keyed ResourceType}
    (made : bareTypes d factory = .ok bares) : Scope.Of d (scopeOf bares) := by
  refine ⟨placed_scopeOf bares, ?_⟩
  have entries := map_eq_of_mapM (g := fun entry : String × ResourceType =>
    (entry.1, entry.2.identifiers)) (h := fun entry => (entry.1, entry.2.identifiers.map snakeCase)) made
    fun entry type one => by
      obtain ⟨made, typed, one⟩ := bind_ok.mp one
      rw [pure_ok] at one
      subst one
      rw [(ResourceType.of_make typed).2.1]
  rw [← entries]
  refine List.ext_getElem? fun index => ?_
  rw [List.getElem?_map, getElem?_scopeOf, List.getElem?_map, Option.map_map]
  rfl

end ResourceGraph
