import ResourceGraph.Model.Plan
import ResourceGraph.Proofs.Declaration
import ResourceGraph.Proofs.Outcome

/-!
What the components of a compiled rule are wired to. A request reads identifiers of the type that
owns it, a builder reads identifiers of its owner and gives exactly the identifiers of its target,
and every path was read when the component was made. Each fact is stated of the function that makes
the component.
-/

namespace ResourceGraph

open Outcome

/-- The text can be read as a path. -/
def Path.Readable (text : String) : Prop := ∃ expr, Path.compile text = .ok expr

/-- Every identifier that a projection of the request names is declared. -/
def Request.ReadsDeclared (r : Request) (declared : List String) : Prop :=
  ∀ p ∈ r.params, ∀ name, p.source = .identifier name → ∃ i ∈ declared, name = .str i

namespace Builder

/-- Every identifier that a source of the builder names is declared. -/
def ReadsDeclared (b : Builder) (declared : List String) : Prop :=
  ∀ s ∈ b.sources, s.kind = .identifier → s.source ∈ declared

/-- The sources give identifiers of the list, and each of them. -/
structure Covers (b : Builder) (declared : List String) : Prop where
  known : ∀ s ∈ b.sources, s.target ∈ declared
  covered : ∀ name ∈ declared, ∃ s ∈ b.sources, s.target = name

/-- At most the last source takes the argument of the call. -/
def ArgumentLast (b : Builder) : Prop := ∀ s ∈ b.sources.dropLast, s.kind ≠ .argument

/-- Every path among the sources, the one of the data included, can be read. -/
def PathsReadable (b : Builder) : Prop :=
  ∀ s ∈ b.allSources, s.kind.isPath = true → Path.Readable s.source

/-- A builder made for a type of the scope by an owner with declared identifiers. -/
structure Sound (scope : Scope) (declared : List String) (b : Builder) : Prop where
  target : ∃ entry ∈ scope, b.target = entry.2.ref ∧ b.Covers entry.2.identifiers
  reads : b.ReadsDeclared declared
  argument : b.ArgumentLast
  paths : b.PathsReadable
  apart : ∀ s ∈ b.sources, s.kind = .argument → ∀ other ∈ b.sources, other.kind ≠ .argument →
    other.target ≠ s.target

end Builder

/-- An operation made in a scope by an owner with declared identifiers. -/
structure Operation.Sound (scope : Scope) (declared : List String) (o : Operation) : Prop where
  request : ∀ r, o.request? = some r → r.ReadsDeclared declared
  builder : ∀ b, o.builder? = some b → b.Sound scope declared
  reference : o.kind = .reference → ∀ b, o.builder? = some b → b.readsResponse = false
  enumeration : o.kind = .enumerateResource → ∀ b, o.builder? = some b → b.isPlural = true
  path : ∀ p, o.path? = some p → p = Path.whole ∨ Path.Readable p

variable {scope : Scope} {owner : Owner} {target : TypeSignature}

/-! ## Sources -/

theorem IdentifierSource.of_make {kind : SourceKind} {source target : String} {s : IdentifierSource}
    (made : IdentifierSource.make kind source target = .ok s) :
    s = ⟨kind, source, target⟩ ∧ (kind.isPath = true → Path.Readable source) := by
  unfold IdentifierSource.make at made
  split at made
  · obtain ⟨expr, read, made⟩ := bind_ok.mp made
    rw [pure_ok] at made
    exact ⟨made.symm, fun _ => ⟨expr, read⟩⟩
  · next plain =>
    simp only [Except.ok.injEq] at made
    exact ⟨made.symm, fun path => absurd path plain⟩

theorem Scope.source_made {rule : SourceRule} {s : IdentifierSource}
    (made : Scope.source rule = .ok s) :
    s.kind = rule.kind ∧ (s.kind.isPath = true → Path.Readable s.source) := by
  obtain ⟨rfl, readable⟩ := IdentifierSource.of_make made
  exact ⟨rfl, readable⟩

theorem Scope.reads_of_checkSources {sources : List IdentifierSource}
    (checked : Scope.checkSources owner sources = .ok ()) :
    ∀ s ∈ sources, s.kind = .identifier → s.source ∈ owner.identifiers := by
  induction sources with
  | nil => simp
  | cons first rest ih =>
    unfold Scope.checkSources at checked
    split at checked
    · cases checked
    · next fits =>
      intro s member kind
      rcases List.mem_cons.mp member with rfl | member
      · simpa [kind] using fits
      · exact ih checked s member kind

/-! ## Builders -/

/-- Completing the sources covers the type, and adds at most one source, which takes the argument
for an identifier that no other source gives. -/
theorem Builder.of_complete {sources completed : List IdentifierSource}
    (done : Builder.complete target sources = .ok completed) :
    ∃ added : List IdentifierSource, completed = sources ++ added ∧ added.length ≤ 1 ∧
      (∀ s ∈ added, s.kind = .argument ∧ ∀ other ∈ sources, other.target ≠ s.target) ∧
      (∀ s ∈ completed, s.target ∈ target.identifiers) ∧
      ∀ name ∈ target.identifiers, ∃ s ∈ completed, s.target = name := by
  unfold Builder.complete at done
  dsimp only at done
  split at done
  · cases done
  · next known =>
    split at done
    · cases done
    · next few =>
      cases done
      have targets : ∀ s ∈ sources, s.target ∈ target.identifiers := by
        simpa using known
      refine ⟨_, rfl, by simpa using few, ?_, ?_, ?_⟩
      · intro s member
        obtain ⟨name, left, rfl⟩ := List.mem_map.mp member
        refine ⟨rfl, fun other given same => ?_⟩
        simp only [List.mem_filter, Bool.not_eq_true', List.contains_eq_mem,
          decide_eq_false_iff_not] at left
        exact left.2 (List.mem_map.mpr ⟨other, given, same⟩)
      · intro s member
        rcases List.mem_append.mp member with given | added
        · exact targets s given
        · obtain ⟨name, open_, rfl⟩ := List.mem_map.mp added
          exact (List.mem_filter.mp open_).1
      · intro name declared
        by_cases given : name ∈ sources.map IdentifierSource.target
        · obtain ⟨s, member, same⟩ := List.mem_map.mp given
          exact ⟨s, List.mem_append_left _ member, same⟩
        · refine ⟨IdentifierSource.ofArgument name, List.mem_append_right _ ?_, rfl⟩
          exact List.mem_map_of_mem (List.mem_filter.mpr ⟨declared, by simpa using given⟩)

theorem Builder.of_make {sources : List IdentifierSource} {path : Option String} {b : Builder}
    (made : Builder.make (some target) sources path = .ok b) :
    b.target = target.ref ∧ Builder.complete target sources = .ok b.sources ∧ b.loadPath = path ∧
      ∀ data, b.dataSource? = some data → Path.Readable data.source := by
  obtain ⟨completed, done, made⟩ := bind_ok.mp made
  dsimp only at made
  split at made
  · next data found =>
    obtain ⟨expr, read, made⟩ := bind_ok.mp made
    rw [pure_ok] at made
    subst made
    refine ⟨rfl, done, rfl, fun other same => ?_⟩
    rw [found] at same
    cases same
    exact ⟨expr, read⟩
  · next none =>
    rw [pure_ok] at made
    subst made
    exact ⟨rfl, done, rfl, fun data same => absurd same (none data)⟩

/-- A builder whose sources read what the owner declares is sound. -/
theorem Builder.sound_of_make {name : String} {declared : List String}
    {sources : List IdentifierSource} {path : Option String} {b : Builder}
    (there : (name, target) ∈ scope) (free : ∀ s ∈ sources, s.kind ≠ .argument)
    (reads : ∀ s ∈ sources, s.kind = .identifier → s.source ∈ declared)
    (paths : ∀ s ∈ sources, s.kind.isPath = true → Path.Readable s.source)
    (made : Builder.make (some target) sources path = .ok b) : b.Sound scope declared := by
  obtain ⟨targeted, done, _, data⟩ := of_make made
  obtain ⟨added, whole, few, arguments, known, covered⟩ := of_complete done
  refine ⟨⟨_, there, targeted, known, covered⟩, ?_, ?_, ?_, ?_⟩
  · intro s member kind
    rw [whole] at member
    rcases List.mem_append.mp member with given | added
    · exact reads s given kind
    · rw [(arguments s added).1] at kind
      cases kind
  · intro s member
    rw [whole] at member
    match added, few with
    | [], _ => exact free s (List.dropLast_subset _ (by simpa using member))
    | [_], _ => exact free s (by simpa using member)
  · intro s member path
    rcases List.mem_append.mp member with source | data_
    · rw [whole] at source
      rcases List.mem_append.mp source with given | added
      · exact paths s given path
      · rw [(arguments s added).1] at path
        cases path
    · exact data s (by simpa using data_)
  · intro s member kind other listed plain
    rw [whole] at member listed
    rcases List.mem_append.mp member with given | added
    · exact absurd kind (free s given)
    · rcases List.mem_append.mp listed with given | another
      · exact (arguments s added).2 other given
      · exact absurd (arguments other another).1 plain

theorem Scope.builder_sound {name : String} {rule : BuildRule} {b : Builder}
    (there : (name, target) ∈ scope) (declared : rule.Declared)
    (made : Scope.builder owner target rule = .ok b) : b.Sound scope owner.identifiers := by
  obtain ⟨sources, mapped, made⟩ := bind_ok.mp made
  obtain ⟨_, checked, made⟩ := bind_ok.mp made
  refine Builder.sound_of_make there ?_ (reads_of_checkSources checked) ?_ made
  · intro s member
    obtain ⟨written, listed, one⟩ := mem_of_mapM mapped member
    rw [(source_made one).1]
    exact declared written listed
  · intro s member
    obtain ⟨written, listed, one⟩ := mem_of_mapM mapped member
    exact (source_made one).2

/-! ## Requests -/

theorem Scope.request_reads {rule : RequestRule} {r : Request}
    (made : Scope.request owner rule = .ok r) : r.ReadsDeclared owner.identifiers := by
  obtain ⟨projections, mapped, made⟩ := bind_ok.mp made
  unfold Request.make at made
  split at made
  · cases made
  · cases made
    intro p member name named
    obtain ⟨written, _, one⟩ := mem_of_mapM mapped member
    obtain ⟨value, given, one⟩ := bind_ok.mp one
    obtain ⟨source, sourced, one⟩ := bind_ok.mp one
    obtain ⟨address, _, one⟩ := bind_ok.mp one
    rw [pure_ok] at one
    subst one
    dsimp only at named
    subst named
    cases kind : written.kind with
    | identifier =>
      simp only [kind, Projection.sourceOf, Except.ok.injEq,
        ProjectionSource.identifier.injEq] at sourced
      subst sourced
      simp only [Scope.given, kind] at given
      obtain ⟨text, _, given⟩ := bind_ok.mp given
      split at given
      · next known =>
        rw [pure_ok] at given
        exact ⟨_, by simpa using known, given.symm⟩
      · cases given
    | dataMember => simp [kind, Projection.sourceOf] at sourced
    | string => simp [kind, Projection.sourceOf, map_ok] at sourced
    | integer => simp [kind, Projection.sourceOf, map_ok] at sourced
    | boolean => simp [kind, Projection.sourceOf, map_ok] at sourced

/-! ## Operations -/

namespace Operation

variable {kind : OperationKind} {parts : Parts}

theorem needRequest_ok {r : Request} : needRequest kind parts = .ok r ↔ parts.request = some r := by
  unfold needRequest
  split <;> simp_all

private theorem needBuilder_ok {b : Builder} :
    needBuilder kind parts = .ok b ↔ parts.builder = some b := by
  unfold needBuilder
  split <;> simp_all

theorem needPath_ok {p : String} :
    needPath kind parts = .ok p ↔ parts.path = some p ∧ p ≠ "" := by
  unfold needPath
  split
  · next path found =>
    by_cases blank : path = ""
    · subst blank
      simp [found]
    · simp only [found, String.isEmpty_iff, blank, ↓reduceIte, Except.ok.injEq, Option.some.injEq]
      exact ⟨fun same => ⟨same, same ▸ blank⟩, And.left⟩
  · simp_all

/-- The kinds that look up the value at a path. -/
def searching : List OperationKind := [.data, .enumerateData, .load]

/-- What is assembled is of the kind and has the parts it was given. Only plural builders enumerate,
and no empty path is looked up. -/
theorem of_assemble {o : Operation} (built : assemble kind parts = .ok o) :
    o.kind = kind ∧ o.request? = parts.request ∧ o.builder? = parts.builder ∧
      o.path? = parts.path ∧
      (kind = .enumerateResource → ∀ b, parts.builder = some b → b.isPlural = true) ∧
      (kind ∈ searching → ∀ p, parts.path = some p → p ≠ "") := by
  cases kind with
  | basic =>
    obtain ⟨r, request, built⟩ := bind_ok.mp built
    cases built
    simp [Operation.kind, request?, builder?, path?, searching, needRequest_ok.mp request]
  | data | enumerateData | load =>
    obtain ⟨r, request, built⟩ := bind_ok.mp built
    obtain ⟨p, path, built⟩ := bind_ok.mp built
    cases built
    simp [Operation.kind, request?, builder?, path?, needRequest_ok.mp request, needPath_ok.mp path]
  | resource =>
    obtain ⟨r, request, built⟩ := bind_ok.mp built
    obtain ⟨b, builder, built⟩ := bind_ok.mp built
    cases built
    simp [Operation.kind, request?, builder?, path?, searching, needRequest_ok.mp request,
      needBuilder_ok.mp builder]
  | enumerateResource =>
    obtain ⟨r, request, built⟩ := bind_ok.mp built
    obtain ⟨b, builder, built⟩ := bind_ok.mp built
    split at built
    · next plural =>
      cases built
      simp [Operation.kind, request?, builder?, path?, searching, needRequest_ok.mp request,
        needBuilder_ok.mp builder, plural]
    · cases built
  | reference =>
    obtain ⟨b, builder, built⟩ := bind_ok.mp built
    cases built
    simp [Operation.kind, request?, builder?, path?, searching, needBuilder_ok.mp builder]

/-- Making an operation also reads its path, unless that is the whole value or empty. -/
theorem of_make {o : Operation} (made : Operation.make kind parts = .ok o) :
    assemble kind parts = .ok o ∧
      ∀ p, o.path? = some p → p ≠ "" → p = Path.whole ∨ Path.Readable p := by
  obtain ⟨assembled, built, made⟩ := bind_ok.mp made
  split at made
  · next path found =>
    split at made
    · next plain =>
      rw [pure_ok] at made
      subst made
      refine ⟨built, fun p same full => Or.inl ?_⟩
      rw [found] at same
      cases same
      simpa [full] using plain
    · obtain ⟨expr, read, made⟩ := bind_ok.mp made
      rw [pure_ok] at made
      subst made
      refine ⟨built, fun p same _ => Or.inr ⟨expr, ?_⟩⟩
      rw [found] at same
      cases same
      exact read
  · next none =>
    rw [pure_ok] at made
    subst made
    exact ⟨built, fun p same => by rw [none] at same; cases same⟩

/-- An operation of sound parts is sound. A path is given to it only where it is looked up. -/
theorem sound_of_make {declared : List String} {o : Operation}
    (request : ∀ r, parts.request = some r → r.ReadsDeclared declared)
    (builder : ∀ b, parts.builder = some b → b.Sound scope declared)
    (reference : kind = .reference → ∀ b, parts.builder = some b → b.readsResponse = false)
    (path : kind ∉ searching → parts.path = none)
    (made : Operation.make kind parts = .ok o) : o.Sound scope declared ∧ o.kind = kind := by
  obtain ⟨built, readable⟩ := of_make made
  obtain ⟨ofKind, sameRequest, sameBuilder, samePath, plural, full⟩ := of_assemble built
  refine ⟨⟨?_, ?_, ?_, ?_, ?_⟩, ofKind⟩
  · rw [sameRequest]
    exact request
  · rw [sameBuilder]
    exact builder
  · rw [ofKind, sameBuilder]
    exact reference
  · rw [ofKind, sameBuilder]
    exact plural
  · intro p there
    by_cases looked : kind ∈ searching
    · exact readable p there (full looked p (samePath ▸ there))
    · rw [samePath, path looked] at there
      cases there

end Operation

namespace Scope

variable {o : Operation} {name key : String}

theorem mem_of_lookup {type : Option String} (found : scope.lookup owner name type = .ok target) :
    ∃ key, (key, target) ∈ scope := by
  unfold lookup at found
  split at found
  · cases found
  · next key =>
    split at found
    · next entry there =>
      cases found
      exact ⟨key, Keyed.mem_of_get? there⟩
    · cases found

theorem load_sound {rule : LoadRule} (made : Scope.load owner rule = .ok o) :
    o.Sound scope owner.identifiers ∧ o.kind = .load := by
  obtain ⟨r, requested, made⟩ := bind_ok.mp made
  refine Operation.sound_of_make ?_ (by simp) (by simp) (by simp [Operation.searching]) made
  rintro _ ⟨⟩
  exact request_reads requested

theorem action_sound {rule : ActionRule} (declared : BuildRule.DeclaredIfAny rule.resource)
    (made : scope.action owner name rule = .ok o) : o.Sound scope owner.identifiers := by
  obtain ⟨r, requested, made⟩ := bind_ok.mp made
  have reads := request_reads requested
  split at made
  · next build written =>
    obtain ⟨target, found, made⟩ := bind_ok.mp made
    obtain ⟨b, built, made⟩ := bind_ok.mp made
    obtain ⟨key, there⟩ := mem_of_lookup found
    have sound := builder_sound there (declared build written) built
    by_cases plural : b.isPlural = true <;>
    · simp only [plural, ↓reduceIte, Bool.false_eq_true] at made
      exact (Operation.sound_of_make (by rintro _ ⟨⟩; exact reads) (by rintro _ ⟨⟩; exact sound)
        (by simp) (by simp) made).1
  · next path _ _ =>
    by_cases plural : Path.isPlural path = true <;>
    · simp only [plural, ↓reduceIte, Bool.false_eq_true] at made
      exact (Operation.sound_of_make (by rintro _ ⟨⟩; exact reads) (by simp) (by simp)
        (by simp [Operation.searching]) made).1
  · exact (Operation.sound_of_make (by rintro _ ⟨⟩; exact reads) (by simp) (by simp) (by simp) made).1

theorem enumeration_sound {rule : CallRule} (there : (key, target) ∈ scope)
    (declared : rule.resource.Declared)
    (made : Scope.enumeration owner name target rule = .ok o) : o.Sound scope owner.identifiers := by
  obtain ⟨b, built, made⟩ := bind_ok.mp made
  split at made
  · obtain ⟨r, requested, made⟩ := bind_ok.mp made
    exact (Operation.sound_of_make (by rintro _ ⟨⟩; exact request_reads requested)
      (by rintro _ ⟨⟩; exact builder_sound there declared built) (by simp) (by simp) made).1
  · cases made

theorem creation_sound {rule : CallRule} (there : (key, target) ∈ scope)
    (declared : rule.resource.Declared)
    (made : Scope.creation owner target rule = .ok o) : o.Sound scope owner.identifiers := by
  obtain ⟨r, requested, made⟩ := bind_ok.mp made
  obtain ⟨b, built, made⟩ := bind_ok.mp made
  exact (Operation.sound_of_make (by rintro _ ⟨⟩; exact request_reads requested)
    (by rintro _ ⟨⟩; exact builder_sound there declared built) (by simp) (by simp) made).1

theorem of_referenceBuilder {rule : BuildRule} {b : Builder}
    (made : Scope.referenceBuilder owner name target rule = .ok b) :
    Scope.builder owner target rule = .ok b ∧ b.readsResponse = false := by
  obtain ⟨built, base, made⟩ := bind_ok.mp made
  split at made
  · cases made
  · next silent =>
    rw [pure_ok] at made
    subst made
    exact ⟨base, by simpa using silent⟩

/-- A reference to a type of the scope, from a builder that no response is needed for. -/
theorem referring_sound {declared : List String} {b : Builder} (sound : b.Sound scope declared)
    (silent : b.readsResponse = false)
    (made : Operation.make .reference { builder := some b } = .ok o) :
    o.Sound scope declared ∧ o.kind = .reference :=
  Operation.sound_of_make (by simp) (by rintro _ ⟨⟩; exact sound) (by rintro _ _ ⟨⟩; exact silent)
    (by simp) made

theorem reference_sound {rule : BuildRule} (there : (key, target) ∈ scope)
    (declared : rule.Declared)
    (made : Scope.reference owner name target rule = .ok o) : o.Sound scope owner.identifiers := by
  obtain ⟨b, built, made⟩ := bind_ok.mp made
  obtain ⟨base, silent⟩ := of_referenceBuilder built
  exact (referring_sound (builder_sound there declared base) silent made).1

/-- A reference to one resource is made by a builder that gives one. -/
theorem singleReference_sound {rule : BuildRule} (there : (key, target) ∈ scope)
    (declared : rule.Declared)
    (made : Scope.singleReference owner name target rule = .ok o) :
    o.Sound scope owner.identifiers ∧ ∃ b, o.work = .reference b ∧ b.isPlural = false := by
  obtain ⟨b, built, made⟩ := bind_ok.mp made
  obtain ⟨base, silent⟩ := of_referenceBuilder built
  split at made
  · cases made
  · next single =>
    refine ⟨(referring_sound (builder_sound there declared base) silent made).1, b, ?_,
      by simpa using single⟩
    obtain ⟨assembled, _⟩ := Operation.of_make made
    cases assembled
    rfl

end Scope

/-! ## References made from identifiers -/

/-- A reference that takes what it can from identifiers of its owner. -/
theorem Plan.related_sound {declared : List String} {name : String}
    (pairs : List (String × String)) {o : Operation} (there : (name, target) ∈ scope)
    (reads : ∀ pair ∈ pairs, pair.1 ∈ declared)
    (made : Plan.related target (Plan.identifierSources pairs) = .ok o) :
    o.Sound scope declared := by
  obtain ⟨b, built, made⟩ := bind_ok.mp made
  have identifiers : ∀ s ∈ Plan.identifierSources pairs, s.kind = .identifier ∧ s.source ∈ declared := by
    intro s member
    obtain ⟨pair, listed, rfl⟩ := List.mem_map.mp member
    exact ⟨rfl, reads pair listed⟩
  have sound : b.Sound scope declared :=
    Builder.sound_of_make there (fun s member => by simp [(identifiers s member).1])
      (fun s member _ => (identifiers s member).2)
      (fun s member => by simp [(identifiers s member).1, SourceKind.isPath]) built
  refine (Scope.referring_sound sound ?_ made).1
  obtain ⟨_, done, noPath, _⟩ := Builder.of_make built
  obtain ⟨added, whole, _, arguments, _⟩ := Builder.of_complete done
  have noData : b.dataSource? = none := by simp [Builder.dataSource?, noPath]
  simp only [Builder.readsResponse, Builder.allSources, noData, Option.toList_none, List.append_nil,
    List.any_eq_false, whole, List.mem_append]
  rintro s (given | added)
  · simp [(identifiers s given).1, SourceKind.readsResponse]
  · simp [(arguments s added).1, SourceKind.readsResponse]

end ResourceGraph
