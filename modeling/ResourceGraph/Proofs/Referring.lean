import ResourceGraph.Proofs.Demands
import ResourceGraph.Proofs.Keeping
import ResourceGraph.Proofs.Nesting

/-!
Using references. A reference is used by its name, with an argument where its builder takes one;
without an argument it is built once and kept. One that draws from identifiers gives, whether it was
kept or is built now, a resource that has what it draws, and nothing is called for it.
-/

namespace ResourceGraph

open ResourceGraph.Graph Outcome

/-- Uses the reference that a resource has under a name, with what its call was given as the
argument. -/
def Act.refer (id : ResourceId) (name : String) (argument : Option Datum) : Act Built := do
  let type ← typeOf (← resource id).type
  match (← lift (type.operation name)).work, argument with
  | .reference b, some v =>
    if b.requiresArgument then build b { caller := some id, argument := v } else misuse .wrongArguments
  | .reference b, none =>
    if b.requiresArgument then misuse .wrongArguments else keptReference id name b
  | _, _ => misuse .wrongArguments

namespace Act

variable {g h : Graph} {id : ResourceId} {name : String} {o : Operation} {b : Builder}

theorem operation_of_names (names : g.Names id name o) : ∃ r type, g.resources[id]? = some r ∧
    runIn (resource id) g = (.ok r, g) ∧ runIn (typeOf r.type) g = (.ok type, g) ∧
      type.operation name = .ok o := by
  obtain ⟨r, type, there, typed, found⟩ := names
  refine ⟨r, type, there, resource_runs there, ?_, ?_⟩
  · rw [runIn_typeOf, typed]
    rfl
  · rw [ResourceType.operation, found]

private theorem runIn_refer (names : g.Names id name o) (work : o.work = .reference b)
    (argument : Option Datum) (given : b.requiresArgument = argument.isSome) :
    runIn (refer id name argument) g = runIn (argument.elim (keptReference id name b)
      fun v => build b { caller := some id, argument := v }) g := by
  obtain ⟨r, type, _, resourced, typed, found⟩ := operation_of_names names
  unfold refer
  rw [runIn_bind_ok resourced, runIn_bind_ok typed, found, runIn_bind_ok (runIn_liftResult _ _), work]
  cases argument with
  | none => simp [given]
  | some v => simp [given]

/-- To invoke an operation by its name is to call it under that name. -/
theorem runIn_invokeNamed (names : g.Names id name o) (unnamed : List Json) {named : Keyed Json}
    (plain : Keyed.has named "self" = false ∧ Keyed.has named "name" = false) :
    runIn (invokeNamed id (.str name) unnamed named) g =
      runIn (callOperation id name o unnamed named) g := by
  obtain ⟨r, type, there, resourced, typed, found⟩ := operation_of_names names
  unfold invokeNamed
  rw [if_neg (by simp [plain]), runIn_bind_ok resourced, runIn_bind_ok typed]
  simp only [operationOf, found]
  rw [runIn_bind_ok (runIn_liftResult _ _)]
  rfl

/-- What a reference that draws from identifiers comes to: a resource that has what it draws. The
types stay, other resources remain, nothing is called and no data assigned. -/
structure Draws (g : Graph) (id : ResourceId) (name : String) (argument : Option Datum) (b : Builder)
    (r : Resource) (x : ResourceId) (s : Resource) (h : Graph) : Prop where
  ran : runIn (refer id name argument) g = (.ok (.one x), h)
  there : h.resources[x]? = some s
  mirrors : b.Mirrors r (argument.getD .null) s
  refers : g.Refers h
  quiet : g.Quiet h

/-- A reference that draws from identifiers comes to a resource, if every source draws something and
the type can be given it. -/
theorem refer_draws {m : Model} {r : Resource} {type : ResourceType} {argument : Option Datum}
    (faithful : g.Faithful m) (there : g.resources[id]? = some r) (names : g.Names id name o)
    (work : o.work = .reference b) (draws : b.Draws) (typed : g.types[b.target.index]? = some type)
    (covers : b.Covers type.identifiers) (usable : ∀ name ∈ takenNames, name ∉ type.identifiers)
    (given : b.requiresArgument = argument.isSome)
    (drawn : ∀ s ∈ b.sources, ∃ v, v ≠ .null ∧ s.drawn r.identifiers (argument.getD .null) = some v) :
    ∃ x s h, Draws g id name argument b r x s h := by
  have built : ∀ v, argument.getD .null = v → ∃ s mid,
      runIn (build b { caller := some id, argument := v }) g = (.ok (.one g.resources.size), mid) ∧
        mid.resources[g.resources.size]? = some s ∧ b.Mirrors r v s ∧ g.Refers mid ∧ g.Quiet mid := by
    rintro v rfl
    have builds : ∃ built mid, runIn (build b { caller := some id, argument := argument.getD .null }) g =
      (.ok built, mid) := build_draws draws rfl there typed covers usable drawn
    obtain ⟨built, mid, ran⟩ := builds
    have refers := (using_refers.builds b _).related ran
    obtain ⟨s, rfl, rfl, mirrors, new⟩ := build_draws_gives draws rfl there ran
    exact ⟨s, _, ran, Array.getElem?_push_size, mirrors, refers, quiet_making.adds g s new⟩
  have used := runIn_refer names work argument given
  cases argument with
  | some v =>
    obtain ⟨s, mid, ran, last, mirrors, refers, quiet⟩ := built v rfl
    exact ⟨_, s, mid, used.trans ran, last, mirrors, refers, quiet⟩
  | none =>
    have resourced : runIn (resource id) g = (.ok r, g) := resource_runs there
    dsimp only [Option.elim] at used
    unfold keptReference at used
    rw [runIn_bind_ok resourced] at used
    cases kept : Keyed.get? r.references name with
    | some before =>
      obtain ⟨x, s, rfl, last, mirrors⟩ :=
        faithful.kept id r name before there kept r o b there names work draws
      rw [kept] at used
      exact ⟨x, s, g, used, last, mirrors, refers_lasting.refl g, quiet_lasting.refl g⟩
    | none =>
      obtain ⟨s, mid, ran, last, mirrors, refers, quiet⟩ := built .null rfl
      rw [kept] at used
      dsimp only at used
      rw [runIn_bind_ok ran] at used
      have ended : runIn (refer id name none) g = (.ok (.one g.resources.size),
        { mid with resources := mid.resources.modify id fun r =>
          { r with references := Keyed.put r.references name (.one g.resources.size) } }) := used
      have refers := refers_of_keptReference names work
      have same : runIn (refer id name none) g = runIn (keptReference id name b) g :=
        runIn_refer names work none given
      rw [← same, ended] at refers
      refine ⟨_, s, _, ended, ?_, mirrors, refers, quiet_lasting.trans quiet (keep_quiet id name _ mid)⟩
      have other : id ≠ g.resources.size := Nat.ne_of_lt (Array.getElem?_eq_some_iff.mp there).1
      dsimp only
      rw [Array.getElem?_modify, if_neg other]
      exact last

end Act

end ResourceGraph
