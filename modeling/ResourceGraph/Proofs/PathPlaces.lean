import ResourceGraph.Graph.Enumerate
import ResourceGraph.Proofs.Calling
import ResourceGraph.Proofs.Evaluation
import ResourceGraph.Proofs.Wiring

/-!
The places where a path stands. An operation has one for what it reads from a response, a source of
an identifier may have one, and so may a builder for the data of what it builds. Each place reads
the text of its path when it is made and searches with it later.

The whole value needs no reading, and searching never reads it. Only operations leave its text
unread as well: the other places read it, and so they never take it.
-/

namespace ResourceGraph

open ResourceGraph.Graph Outcome

/-- Whatever is searched with the text, it never fails for a fault of definition. -/
def Path.Blameless (text : String) : Prop :=
  ∀ (s : Store) (v : Datum) (fault : DefinitionFault) (t : Store), s.WellRead →
    runIn (Path.search text v) s ≠ (.error (.definition fault), t)

/-- How a text stands as a path at the places that take one. -/
structure Path.Placed (text : String) : Prop where
  /-- A search blames the text exactly if it is not the whole value and is not written as an
  expression. -/
  searched : Path.Blameless text ↔ text = Path.whole ∨ Path.compile text ≠ .error (Path.invalid text)
  /-- An operation takes the whole value and whatever can be read. -/
  operation : ∀ kind ∈ Operation.searching, ∀ request builder,
    (∃ o, Operation.make kind { request := some request, builder, path := some text } = .ok o) ↔
      text = Path.whole ∨ Path.Readable text
  /-- A source takes what can be read. -/
  source : ∀ kind : SourceKind, kind.isPath = true → ∀ target,
    (∃ s, IdentifierSource.make kind text target = .ok s) ↔ Path.Readable text
  /-- A builder takes what can be read, where nothing else is wrong with it. -/
  data : ∀ type sources, (∃ b, Builder.make (some type) sources none = .ok b) →
    ((∃ b, Builder.make (some type) sources (some text) = .ok b) ↔ Path.Readable text)
  /-- The whole value cannot be read. -/
  unread : ¬ Path.Readable Path.whole

/-- What a path finds at the places that have taken it. -/
structure Path.Answers (text : String) : Prop where
  /-- The whole value is found as it is. -/
  whole : ∀ v s, runIn (Path.search Path.whole v) s = (.ok v, s)
  /-- An operation for data gives what is found in the response. -/
  data : ∀ request builder o,
    Operation.make .data { request := some request, builder, path := some text } = .ok o →
    ∀ context g response h, runIn (Act.sendRequest Act.data request context) g = (.ok response, h) →
      runIn (Act.invoke o context) g = runIn (do return .value (← Act.search text response.data)) h
  /-- A load gives its caller what is found in the response. -/
  load : ∀ request builder o,
    Operation.make .load { request := some request, builder, path := some text } = .ok o →
    ∀ context id g response h, context.caller = some id →
      runIn (Act.sendRequest Act.data request context) g = (.ok response, h) →
      runIn (Act.invoke o context) g = runIn (do
        Act.setData id (← Act.search text response.data)
        return .built (.one id)) h
  /-- An enumeration of data goes through what is found on each page. -/
  pages : ∀ request builder o,
    Operation.make .enumerateData { request := some request, builder, path := some text } = .ok o →
    ∀ context g, ∃ harvest, runIn (Act.invoke o context) g =
        (.ok (.enumeration g.enumerations.size),
          { g with enumerations := g.enumerations.push ⟨harvest, context, .untouched request⟩ }) ∧
      ∀ page h, runIn (Act.harvestPage harvest context page) h =
        runIn (do Act.valueElements (← Act.search text page.data)) h
  /-- A source for data gives what is found in the data of the caller. -/
  member : ∀ target s, IdentifierSource.make .dataMember text target = .ok s →
    ∀ context id g v h, context.caller = some id → runIn (Act.data id) g = (.ok v, h) →
      runIn (Act.extract context s) g = runIn (Act.search text v) h
  /-- A source for the response gives what is found in it. -/
  response : ∀ target s, IdentifierSource.make .responsePath text target = .ok s →
    ∀ context g response, context.response = some response →
      runIn (Act.extract context s) g = runIn (Act.search text response.data) g
  /-- A builder finds the data of what it builds in the response. -/
  built : ∀ type sources b, Builder.make (some type) sources (some text) = .ok b →
    ∃ s, b.dataSource? = some s ∧ s.target = Builder.dataKey ∧
      ∀ context g response, context.response = some response →
        runIn (Act.extract context s) g = runIn (Act.search text response.data) g

/-! ## Reading and searching -/

namespace Path

variable {text : String} {f : Failure}

/-- A text that is not read has the wrong form, or is beyond what can be read. -/
theorem unread_cases (unread : compile text = .error f) : f = invalid text ∨ ∃ m, f = .misuse m := by
  unfold compile at unread
  split at unread <;> cases unread
  · exact .inl rfl
  · exact .inr ⟨_, rfl⟩
  · exact .inr ⟨_, rfl⟩

private theorem blameless_iff :
    Blameless text ↔ text = whole ∨ compile text ≠ .error (invalid text) := by
  constructor
  · intro blameless
    by_cases same : text = whole
    · exact .inl same
    · right
      intro unread
      have fresh : Keyed.get? ({} : Store).expressions text = none := rfl
      have blank : ({} : Store).WellRead := fun _ _ kept => by cases kept
      exact blameless {} .null _ {} blank (search_unread same unread fresh)
  · intro allowed s v fault t well failed
    rcases search_fails failed with ⟨expression, unread⟩ | ⟨fault, other⟩
    · rcases unread_cases unread with same | ⟨m, other⟩
      · rcases allowed with rfl | written
        · exact expression rfl
        · exact written (same ▸ unread)
      · cases other
    · cases other

private theorem not_readable_whole : ¬ Readable whole := by
  rintro ⟨expr, read⟩
  have unread : compile whole = .error (invalid whole) := by rfl
  rw [unread] at read
  cases read

end Path

/-! ## Taking a path -/

theorem Operation.takes_iff {text : String} (full : text ≠ "") {kind : OperationKind}
    (looks : kind ∈ searching) (request : Request) (builder : Option Builder) :
    (∃ o, Operation.make kind { request := some request, builder, path := some text } = .ok o) ↔
      text = Path.whole ∨ Path.Readable text := by
  have assembled : ∃ o, assemble kind { request := some request, builder, path := some text } = .ok o ∧
      o.path? = some text := by
    have needed : needPath kind { request := some request, builder, path := some text } = .ok text :=
      needPath_ok.mpr ⟨rfl, full⟩
    simp only [searching, List.mem_cons, List.not_mem_nil, or_false] at looks
    rcases looks with rfl | rfl | rfl <;>
      exact ⟨_, by rw [assemble, needRequest_ok.mpr rfl, needed]; rfl, rfl⟩
  obtain ⟨o, assembled, path⟩ := assembled
  constructor
  · rintro ⟨o', made⟩
    obtain ⟨again, readable⟩ := of_make made
    cases assembled.symm.trans again
    exact readable text path full
  · intro takes
    refine ⟨o, bind_ok.mpr ⟨o, assembled, ?_⟩⟩
    rw [path]
    dsimp only
    split
    · rfl
    · next expression =>
      simp only [String.isEmpty_iff, beq_iff_eq, Bool.or_eq_true, not_or] at expression
      rcases takes with same | ⟨expr, read⟩
      · exact absurd same expression.2
      · rw [read]
        rfl

theorem IdentifierSource.takes_iff {text : String} {kind : SourceKind} (path : kind.isPath = true)
    (target : String) : (∃ s, make kind text target = .ok s) ↔ Path.Readable text := by
  constructor
  · rintro ⟨s, made⟩
    exact (of_make made).2 path
  · rintro ⟨expr, read⟩
    refine ⟨⟨kind, text, target⟩, ?_⟩
    rw [make, if_pos path, read]
    rfl

/-- The source of the data of what a builder with a load path builds. -/
theorem Builder.dataSource_of_path {text : String} (full : text ≠ "") (type : TypeRef)
    (sources : List IdentifierSource) :
    dataSource? ⟨type, sources, some text⟩ = some ⟨.responsePath, text, dataKey⟩ := by
  have filled : text.isEmpty = false := by simpa using full
  simp [dataSource?, filled]

theorem Builder.takes_iff {text : String} (full : text ≠ "") {type : TypeSignature}
    {sources : List IdentifierSource} (makes : ∃ b, Builder.make (some type) sources none = .ok b) :
    (∃ b, Builder.make (some type) sources (some text) = .ok b) ↔ Path.Readable text := by
  constructor
  · rintro ⟨b, made⟩
    obtain ⟨-, -, path, readable⟩ := of_make made
    refine readable ⟨.responsePath, text, dataKey⟩ ?_
    obtain ⟨target, sources, _⟩ := b
    cases path
    exact dataSource_of_path full target sources
  · rintro ⟨expr, read⟩
    obtain ⟨b, made⟩ := makes
    obtain ⟨completed, complete, -⟩ := bind_ok.mp made
    refine ⟨⟨type.ref, completed, some text⟩, bind_ok.mpr ⟨completed, complete, ?_⟩⟩
    dsimp only
    rw [dataSource_of_path full]
    dsimp only
    rw [read]
    rfl

/-- What an operation that was made with a request and a path does. -/
theorem Operation.work_of_make {text : String} {kind : OperationKind} {request : Request}
    {builder : Option Builder} {o : Operation}
    (made : Operation.make kind { request := some request, builder, path := some text } = .ok o) :
    (kind = .data → o.work = .data request text) ∧
      (kind = .enumerateData → o.work = .enumerateData request text) ∧
      (kind = .load → o.work = .load request text) := by
  obtain ⟨assembled, -⟩ := of_make made
  refine ⟨?_, ?_, ?_⟩ <;> rintro rfl <;>
  · obtain ⟨r, needed, assembled⟩ := bind_ok.mp assembled
    obtain ⟨p, path, assembled⟩ := bind_ok.mp assembled
    cases needRequest_ok.mp needed
    cases (needPath_ok.mp path).1
    cases assembled
    rfl

/-! ## Searching with a path that was taken -/

namespace Act

variable {text : String} {context : Context} {g h : Graph} {response : Response} {o : Operation}
    {request : Request}

private theorem invoke_data (work : o.work = .data request text)
    (sent : runIn (sendRequest data request context) g = (.ok response, h)) :
    runIn (invoke o context) g = runIn (do return .value (← search text response.data)) h := by
  unfold invoke
  rw [work]
  exact runIn_bind_ok sent

private theorem invoke_load {id : ResourceId} (work : o.work = .load request text)
    (called : context.caller = some id)
    (sent : runIn (sendRequest data request context) g = (.ok response, h)) :
    runIn (invoke o context) g = runIn (do
      setData id (← search text response.data)
      return .built (.one id)) h := by
  unfold invoke runLoad
  rw [work, called]
  dsimp only
  rw [bind_assoc, runIn_bind_ok sent, bind_assoc]

private theorem invoke_enumerateData (work : o.work = .enumerateData request text) :
    runIn (invoke o context) g = (.ok (.enumeration g.enumerations.size),
      { g with enumerations := g.enumerations.push ⟨.values text, context, .untouched request⟩ }) := by
  unfold invoke
  rw [work]
  rfl

/-- A source for data finds what searching finds in the data of the caller. -/
theorem extract_dataMember {id : ResourceId} {target : String} {v : Datum}
    (called : context.caller = some id) (read : runIn (data id) g = (.ok v, h)) :
    runIn (extract context ⟨.dataMember, text, target⟩) g = runIn (search text v) h := by
  unfold extract
  dsimp only
  rw [called]
  exact runIn_bind_ok read

/-- A source for the response finds what searching finds in it. -/
theorem extract_responsePath {target : String} (answered : context.response = some response) :
    extract context ⟨.responsePath, text, target⟩ = search text response.data := by
  unfold extract
  rw [answered]

end Act

theorem Path.answers {text : String} (full : text ≠ "") : Path.Answers text where
  whole v s := rfl
  data request builder o made context g response h sent :=
    Act.invoke_data ((Operation.work_of_make made).1 rfl) sent
  load request builder o made context id g response h called sent :=
    Act.invoke_load ((Operation.work_of_make made).2.2 rfl) called sent
  pages request builder o made context g :=
    ⟨.values text, Act.invoke_enumerateData ((Operation.work_of_make made).2.1 rfl), fun page h => rfl⟩
  member target s made context id g v h called read := by
    obtain ⟨rfl, -⟩ := IdentifierSource.of_make made
    exact Act.extract_dataMember called read
  response target s made context g response answered := by
    obtain ⟨rfl, -⟩ := IdentifierSource.of_make made
    rw [Act.extract_responsePath answered]
  built type sources b made := by
    obtain ⟨-, -, path, -⟩ := Builder.of_make made
    obtain ⟨target, sources, _⟩ := b
    cases path
    refine ⟨_, Builder.dataSource_of_path full target sources, rfl, ?_⟩
    intro context g response answered
    rw [Act.extract_responsePath answered]

/-- **Where a path may stand.** Operations take what searching takes: the whole value, and every
text that can be read. Sources and builders take only what can be read, and so never the whole
value. Each place finds later what searching finds with its text, and the whole value is found as it
is. -/
theorem Path.placed {text : String} (full : text ≠ "") : Path.Placed text ∧ Path.Answers text := by
  refine ⟨?_, Path.answers full⟩
  constructor
  case searched => exact blameless_iff
  case operation =>
    intro kind looks request builder
    exact Operation.takes_iff full looks request builder
  case source =>
    intro kind path target
    exact IdentifierSource.takes_iff path target
  case data =>
    intro type sources makes
    exact Builder.takes_iff full makes
  case unread => exact not_readable_whole

/-- The path of the names of all users, at every place. -/
theorem Path.placed_names :
    Path.Readable "Users[].Name" ∧ Path.Placed "Users[].Name" ∧ Path.Answers "Users[].Name" := by
  refine ⟨?_, Path.placed (by decide)⟩
  have read : (Path.compile "Users[].Name").toOption.isSome = true := by decide +kernel
  cases compiled : Path.compile "Users[].Name" with
  | error f =>
    rw [compiled] at read
    cases read
  | ok expr => exact ⟨expr, compiled⟩

/-- The whole value is searched and never taken as what a source reads from the response. -/
theorem Path.whole_refused :
    (∀ v s, runIn (Path.search Path.whole v) s = (.ok v, s)) ∧
      IdentifierSource.make .responsePath Path.whole "id" = .error (Path.invalid Path.whole) :=
  ⟨fun _ _ => rfl, rfl⟩

end ResourceGraph
