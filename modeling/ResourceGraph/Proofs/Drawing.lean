import ResourceGraph.Proofs.Incomplete

/-!
Building from identifiers alone. A builder may draw every identifier from the resource that it is
used on and from the argument of the call. It then calls nobody and looks nothing up, and it gives
one new resource, which has under each target what its source draws. It does give one whenever every
source draws something, and the identifiers of the type are no names that making a resource has a
use for.
-/

namespace ResourceGraph

open ResourceGraph.Graph Outcome

/-- What the source draws from identifiers and from an argument; null is no argument. -/
def IdentifierSource.drawn (s : IdentifierSource) (identifiers : Keyed Datum) (argument : Datum) :
    Option Datum :=
  match s.kind with
  | .identifier => Keyed.get? identifiers s.source
  | .argument => if argument = .null then none else some argument
  | .dataMember | .requestParameter | .responsePath => none

namespace Builder

/-- The builder draws every identifier from one source, and takes no data. -/
structure Draws (b : Builder) : Prop where
  kinds : ∀ s ∈ b.sources, s.kind = .identifier ∨ s.kind = .argument
  apart : (b.sources.map IdentifierSource.target).Nodup
  plain : ∀ s ∈ b.sources, s.target ≠ dataKey
  bare : b.dataSource? = none

/-- The resource `s` has what the builder draws from the resource `r` and the argument, and calls
the same client. -/
structure Mirrors (b : Builder) (r : Resource) (argument : Datum) (s : Resource) : Prop where
  type : s.type = b.target
  client : s.client = r.client
  drawn : ∀ source ∈ b.sources, ∃ v, source.drawn r.identifiers argument = some v ∧
    Keyed.get? s.identifiers source.target = some v

theorem Mirrors.remains {b : Builder} {r r' s s' : Resource} {argument : Datum}
    (mirrors : b.Mirrors r argument s) (before : r.Remains r') (after : s.Remains s') :
    b.Mirrors r' argument s' where
  type := after.type.trans mirrors.type
  client := after.client.trans (mirrors.client.trans before.client.symm)
  drawn := by
    rw [before.identifiers, after.identifiers]
    exact mirrors.drawn

variable {b : Builder}

theorem Draws.allSources (draws : b.Draws) : b.allSources = b.sources := by
  rw [Builder.allSources, draws.bare]
  exact List.append_nil _

theorem Draws.single (draws : b.Draws) : b.isPlural = false := by
  rw [isPlural, draws.allSources, List.any_eq_false]
  intro s member
  rcases draws.kinds s member with kind | kind <;>
    simp [IdentifierSource.isPlural, kind, SourceKind.isPath]

end Builder

namespace Act

variable {b : Builder} {context : Context} {g h : Graph} {id : ResourceId} {r : Resource}

/-! ## Drawing -/

/-- A source that draws gives what it draws, and changes nothing. -/
theorem runIn_extract_drawn (called : context.caller = some id) (there : g.resources[id]? = some r)
    {s : IdentifierSource} {v : Datum} (drawn : s.drawn r.identifiers context.argument = some v) :
    runIn (extract context s) g = (.ok v, g) := by
  unfold IdentifierSource.drawn at drawn
  unfold extract
  split at drawn
  · next kind =>
    rw [kind]
    dsimp only
    rw [runIn_bind_ok (callerOf_runs called there), drawn]
    rfl
  · next kind =>
    rw [kind]
    dsimp only
    split at drawn
    · cases drawn
    · cases drawn
      split
      · next null => contradiction
      · rfl
  all_goals cases drawn

/-- A source that draws from identifiers or the argument gives nothing else. -/
theorem drawn_of_extract (called : context.caller = some id) (there : g.resources[id]? = some r)
    {s : IdentifierSource} (kind : s.kind = .identifier ∨ s.kind = .argument) {v : Datum}
    (ran : runIn (extract context s) g = (.ok v, h)) :
    s.drawn r.identifiers context.argument = some v ∧ h = g := by
  cases drawn : s.drawn r.identifiers context.argument with
  | some w =>
    rw [runIn_extract_drawn called there drawn] at ran
    cases ran
    exact ⟨rfl, rfl⟩
  | none =>
    unfold IdentifierSource.drawn at drawn
    unfold extract at ran
    rcases kind with kind | kind <;> rw [kind] at drawn ran <;> dsimp only at drawn ran
    · rw [runIn_bind_ok (callerOf_runs called there), drawn] at ran
      cases ran
    · split at drawn
      · next null =>
        rw [null] at ran
        cases ran
      · cases drawn

/-- The values after a source. -/
abbrev drawOne (context : Context) (values : Keyed Datum) (s : IdentifierSource) :
    Act (Keyed Datum) := do
  return Keyed.put values s.target (← extract context s)

/-- What was found for sources is there under their targets, and what was there before under other
keys. -/
theorem of_drawOnes (called : context.caller = some id) (there : g.resources[id]? = some r)
    {sources : List IdentifierSource} {before values : Keyed Datum}
    (kinds : ∀ s ∈ sources, s.kind = .identifier ∨ s.kind = .argument)
    (apart : (sources.map IdentifierSource.target).Nodup)
    (ran : runIn (sources.foldlM (drawOne context) before) g = (.ok values, h)) :
    h = g ∧ (∀ key ∈ Keyed.keys values, key ∈ Keyed.keys before ∨ ∃ s ∈ sources, s.target = key) ∧
      (∀ key, (∀ s ∈ sources, s.target ≠ key) → Keyed.get? values key = Keyed.get? before key) ∧
      ∀ s ∈ sources, ∃ v, s.drawn r.identifiers context.argument = some v ∧
        Keyed.get? values s.target = some v := by
  induction sources generalizing before with
  | nil =>
    cases ran
    exact ⟨rfl, fun key member => .inl member, fun key _ => rfl, nofun⟩
  | cons s others ih =>
    rw [List.foldlM_cons] at ran
    obtain ⟨next, mid, first, rest⟩ := bind_gives.mp ran
    obtain ⟨v, last, extracted, put⟩ := bind_gives.mp first
    cases put
    obtain ⟨drawn, rfl⟩ := drawn_of_extract called there (kinds s List.mem_cons_self) extracted
    obtain ⟨fresh, distinct⟩ := List.nodup_cons.mp apart
    obtain ⟨rfl, keys, kept, found⟩ :=
      ih (fun s member => kinds s (List.mem_cons_of_mem _ member)) distinct rest
    have unlisted : ∀ t ∈ others, t.target ≠ s.target :=
      fun t member same => fresh (List.mem_map.mpr ⟨t, member, same⟩)
    refine ⟨rfl, fun key member => ?_, fun key absent => ?_, fun t member => ?_⟩
    · rcases keys key member with old | ⟨t, listed, same⟩
      · rw [Keyed.keys_put] at old
        split at old
        · exact .inl old
        · rcases List.mem_append.mp old with older | new
          · exact .inl older
          · exact .inr ⟨s, List.mem_cons_self, (List.mem_singleton.mp new).symm⟩
      · exact .inr ⟨t, List.mem_cons_of_mem _ listed, same⟩
    · rw [kept key fun t member => absent t (List.mem_cons_of_mem _ member)]
      exact Keyed.get?_put_of_ne before v (absent s List.mem_cons_self).symm
    · rcases List.mem_cons.mp member with rfl | later
      · exact ⟨v, drawn, (kept t.target unlisted).trans (Keyed.get?_put_self before t.target v)⟩
      · exact found t later

private theorem runIn_drawOnes (called : context.caller = some id) (there : g.resources[id]? = some r)
    {sources : List IdentifierSource} (before : Keyed Datum)
    (drawn : ∀ s ∈ sources, ∃ v, s.drawn r.identifiers context.argument = some v) :
    ∃ values, runIn (sources.foldlM (drawOne context) before) g = (.ok values, g) := by
  induction sources generalizing before with
  | nil => exact ⟨before, rfl⟩
  | cons s rest ih =>
    obtain ⟨v, found⟩ := drawn s List.mem_cons_self
    obtain ⟨values, ran⟩ := ih (Keyed.put before s.target v)
      fun t member => drawn t (List.mem_cons_of_mem _ member)
    refine ⟨values, ?_⟩
    rw [List.foldlM_cons, drawOne, bind_assoc, runIn_bind_ok (runIn_extract_drawn called there found)]
    exact ran

/-! ## Building -/

/-- A builder that draws gives one new resource, which has what was drawn, and changes nothing else. -/
theorem build_draws_gives (draws : b.Draws) (called : context.caller = some id)
    (there : g.resources[id]? = some r) {built : Built}
    (ran : runIn (build b context) g = (.ok built, h)) :
    ∃ s, built = .one g.resources.size ∧ h = { g with resources := g.resources.push s } ∧
      b.Mirrors r context.argument s ∧ s.New g.types := by
  unfold build extractAll at ran
  rw [draws.allSources] at ran
  obtain ⟨values, mid, extracted, making⟩ := bind_gives.mp ran
  obtain ⟨rfl, keys, _, found⟩ := of_drawOnes called there draws.kinds draws.apart extracted
  rw [draws.single, if_neg Bool.false_ne_true] at making
  obtain ⟨x, last, made, one⟩ := bind_gives.mp making
  cases one
  obtain ⟨s, fits, ⟨new, type, owner, caller, same, listed, client⟩, rfl, rfl⟩ := buildOne_gives made
  cases called.symm.trans same
  cases there.symm.trans listed
  refine ⟨s, rfl, rfl, ⟨type, client, fun source member => ?_⟩, new⟩
  obtain ⟨v, drawn, has⟩ := found source member
  exact ⟨v, drawn, (fits.1 source.target v (draws.plain source member) has).2⟩

/-- Names that no identifier can be given by when a resource is made. -/
def takenNames : List String := "resource_type" :: ResourceType.unusableNames

/-- An identifier has no value where none is given for it, or null. -/
theorem of_unvalued {t : ResourceType} {given : Keyed Datum} {name : String} {f : Failure}
    (refused : t.valueFor given name = .error f) :
    f = .identifier (.missing t.name name) ∧ (Keyed.get? given name).getD .null = .null := by
  unfold ResourceType.valueFor at refused
  split at refused
  · next absent =>
    cases refused
    exact ⟨rfl, by rw [absent]; rfl⟩
  · next null =>
    cases refused
    exact ⟨rfl, by rw [null]; rfl⟩
  · cases refused

/-- Where only declared identifiers are given, it depends on their values alone whether a resource
is identified. -/
theorem identify_of_known {t : ResourceType} {given : Keyed Datum}
    (usable : ∀ name ∈ takenNames, name ∉ Keyed.keys given)
    (known : ∀ key ∈ Keyed.keys given, key ∈ t.identifiers) :
    t.identify given = t.identifiers.mapM (t.valueFor given) := by
  have free : ∀ name ∈ takenNames, Keyed.has given name = false := by
    intro name taken
    rw [Bool.eq_false_iff, ne_eq, Keyed.has_iff]
    exact usable name taken
  have own : Keyed.has given "self" = false := free _ (by simp [takenNames, ResourceType.unusableNames])
  have none : (Keyed.keys given).filter (fun name => !t.identifiers.contains name) = [] := by
    rw [List.filter_eq_nil_iff]
    intro key member
    simp [known key member]
  simp only [ResourceType.identify, own, free "resource_type" List.mem_cons_self, none, Bool.or_self,
    Bool.false_eq_true, ↓reduceIte, List.isEmpty_nil, Bool.not_true]

/-- Making a resource from named identifiers adds it, or fails with what is wrong with them. -/
theorem runIn_construct_named {ref : TypeRef} {type : ResourceType} {given : Keyed Datum}
    (client : ClientId) (typed : g.types[ref.index]? = some type)
    (usable : ∀ name ∈ takenNames, name ∉ Keyed.keys given) :
    runIn (construct ref [] given (some client) none) g =
      match type.identify given with
      | .ok identifiers =>
        (.ok g.resources.size,
          { g with resources := g.resources.push { type := ref, identifiers, client } })
      | .error f => (.error f, g) := by
  have placed : type.placed [] given = .ok given := by
    unfold ResourceType.placed
    rw [if_neg]
    rw [List.any_eq_true]
    rintro ⟨name, taken, has⟩
    exact usable name (List.mem_cons_of_mem _ taken) (Keyed.has_iff.mp has)
  have placing : runIn (lift (type.placed [] given)) g = (.ok given, g) := by
    rw [runIn_liftResult, placed]
  have typing : runIn (typeOf ref) g = (.ok type, g) := by
    rw [runIn_typeOf, typed]
    rfl
  have serving : runIn (lift (type.clientFor (some client))) g = (.ok client, g) := runIn_liftResult _ _
  unfold construct
  rw [runIn_bind_ok typing, runIn_bind_ok placing]
  unfold makeResource
  rw [runIn_bind_ok typing]
  cases identified : type.identify given with
  | error f => exact runIn_bind_error (runIn_liftResult _ _)
  | ok identifiers =>
    rw [runIn_bind_ok (runIn_liftResult _ _), runIn_bind_ok serving]
    rfl

/-- Where every identifier of a type is given and none is null, and nothing else is given, a
resource can be made of it. -/
theorem runIn_construct {ref : TypeRef} {type : ResourceType} (given : Keyed Datum) (client : ClientId)
    (typed : g.types[ref.index]? = some type) (usable : ∀ name ∈ takenNames, name ∉ type.identifiers)
    (known : ∀ key ∈ Keyed.keys given, key ∈ type.identifiers)
    (filled : ∀ name ∈ type.identifiers, ∃ v, v ≠ .null ∧ Keyed.get? given name = some v) :
    ∃ id h, runIn (construct ref [] given (some client) none) g = (.ok id, h) := by
  have free : ∀ name ∈ takenNames, name ∉ Keyed.keys given :=
    fun name taken member => usable name taken (known name member)
  rw [runIn_construct_named client typed free, identify_of_known free known]
  cases valued : type.identifiers.mapM (type.valueFor given) with
  | ok identifiers => exact ⟨_, _, rfl⟩
  | error f =>
    obtain ⟨name, declared, refused⟩ := error_of_mapM valued
    obtain ⟨v, full, found⟩ := filled name declared
    have null := (of_unvalued refused).2
    rw [found] at null
    exact absurd null full

/-- A builder that draws builds, if every source draws something and the type can be given it. -/
theorem build_draws {type : ResourceType} (draws : b.Draws) (called : context.caller = some id)
    (there : g.resources[id]? = some r) (typed : g.types[b.target.index]? = some type)
    (covers : b.Covers type.identifiers) (usable : ∀ name ∈ takenNames, name ∉ type.identifiers)
    (drawn : ∀ s ∈ b.sources, ∃ v, v ≠ .null ∧ s.drawn r.identifiers context.argument = some v) :
    ∃ built h, runIn (build b context) g = (.ok built, h) := by
  obtain ⟨values, extracted⟩ := runIn_drawOnes called there [] fun s member =>
    (drawn s member).imp fun v => And.right
  obtain ⟨_, keys, _, found⟩ := of_drawOnes called there draws.kinds draws.apart extracted
  have dataless : Keyed.get? values Builder.dataKey = none := by
    rw [Keyed.get?_eq_none_iff]
    intro member
    rcases keys _ member with before | ⟨s, listed, same⟩
    · cases before
    · exact draws.plain s listed same
  have others : ∀ name ∈ type.identifiers, name ≠ Builder.dataKey := by
    rintro name declared rfl
    exact usable _ (by simp [takenNames, ResourceType.unusableNames, Builder.dataKey]) declared
  obtain ⟨x, h, made⟩ := runIn_construct (Keyed.erase values Builder.dataKey) r.client typed usable
    (fun key member => by
      obtain ⟨entry, listed, rfl⟩ := List.mem_map.mp member
      rcases keys entry.1 (List.mem_map_of_mem (List.mem_filter.mp listed).1) with
        before | ⟨s, source, same⟩
      · cases before
      · exact same ▸ covers.known s source)
    (fun name declared => by
      obtain ⟨s, member, rfl⟩ := covers.covered name declared
      obtain ⟨v, full, draw⟩ := drawn s member
      obtain ⟨w, same, has⟩ := found s member
      cases draw.symm.trans same
      exact ⟨v, full, (Keyed.get?_erase values (others _ declared)).trans has⟩)
  have one : runIn (buildOne b context values) g = (.ok x, h) := by
    unfold buildOne
    rw [runIn_bind_ok (callerOf_runs called there), runIn_bind_ok made, dataless]
    rfl
  refine ⟨.one x, h, ?_⟩
  unfold build extractAll
  rw [draws.allSources, runIn_bind_ok extracted, draws.single, if_neg Bool.false_ne_true]
  exact runIn_bind_ok one

end Act

end ResourceGraph
