import ResourceGraph.Proofs.Keeping
import ResourceGraph.Proofs.WellFormed

/-!
Which operations fail for want of an argument. Nothing asks for an argument but a source of a
builder that takes it. Only calls of references pass one; so another operation whose builder has
such a source never gives anything, though its request may well be sent, and one whose builder has
none never fails for want of an argument. A builder of a compiled model has such a source exactly if
its rule leaves one identifier of its type open.
-/

namespace ResourceGraph

open ResourceGraph.Graph

/-- The failure is that an argument is missing. -/
def Failure.LacksArgument : Failure → Prop
  | .missingArgument _ => True
  | _ => False

theorem Failure.LacksArgument.blamesUse {f : Failure} (lacks : f.LacksArgument) : f.BlamesUse := by
  cases f with
  | missingArgument target => trivial
  | _ => exact lacks.elim

/-- A computation that never fails for want of an argument. -/
abbrev Supplied {σ α : Type} (x : ExceptT Failure (StateM σ) α) : Prop :=
  Fails (fun _ => True) (fun f => ¬ f.LacksArgument) x

namespace Supplied

variable {σ α β : Type} {x : ExceptT Failure (StateM σ) α} {f : α → ExceptT Failure (StateM σ) β}

theorem seq (first : Supplied x) (rest : ∀ a, Supplied (f a)) : Supplied (x >>= f) :=
  .bind first (fun _ _ => trivial) rest

theorem of_harmless (harmless : Harmless x) : Supplied x :=
  fun s e t _ ran lacks => harmless s e t trivial ran lacks.blamesUse

private theorem folds {step : β → α → ExceptT Failure (StateM σ) β} {items : List α}
    (each : ∀ b, ∀ a ∈ items, Supplied (step b a)) (b : β) : Supplied (items.foldlM step b) :=
  .foldlM (fun _ _ _ _ _ => trivial) each b

private theorem maps {step : α → ExceptT Failure (StateM σ) β} {items : List α}
    (each : ∀ a ∈ items, Supplied (step a)) :
    Supplied (items.mapM step) :=
  .mapM (fun _ _ _ _ => trivial) each

end Supplied

/-- The builder has no source that takes an argument. -/
def Builder.Unargued (b : Builder) : Prop := ∀ s ∈ b.sources, s.kind ≠ .argument

namespace Act

variable {g h : Graph} {context : Context}

/-! ## Requests -/

private theorem compile_supplied {text : String} {f : Failure} (failed : Path.compile text = .error f) :
    ¬ f.LacksArgument := by
  unfold Path.compile at failed
  split at failed <;> cases failed <;> exact not_false

theorem supplied_search (path : String) (v : Datum) : Supplied (search path v) := by
  intro g f h _ ran
  rw [search, runIn_inStore] at ran
  rcases found : runIn (Path.search path v) g.store with ⟨result, store⟩
  rw [found] at ran
  cases ran
  rcases Path.search_fails found with ⟨_, unread⟩ | ⟨fault, rfl⟩
  · exact compile_supplied unread
  · exact not_false

private theorem pathText_supplied {given : Json} {f : Failure} (failed : pathText given = .error f) :
    ¬ f.LacksArgument := by
  unfold pathText at failed
  split at failed
  · cases failed
  · cases failed
    exact not_false
  · cases failed
    exact not_false
  · cases failed
    split <;> exact not_false

private theorem supplied_lift {α : Type} {result : Except Failure α}
    (each : ∀ f, result = .error f → ¬ f.LacksArgument) :
    Supplied (lift result) := by
  intro g f h _ ran
  rw [runIn_liftResult] at ran
  cases ran
  exact each f rfl

private theorem supplied_fail {α : Type} {f : Failure} (plain : ¬ f.LacksArgument) :
    Supplied (fail f : Act α) := .throw plain

section Reading

variable {read : ResourceId → Act Datum} (reads : ∀ id, Supplied (read id))

include reads

private theorem supplied_project (caller : Option ResourceId) (p : Projection) :
    Supplied (project read caller p) := by
  unfold project
  split
  · exact .pure _
  · exact .pure _
  · exact .pure _
  · exact .throw not_false
  · refine .seq (.of_harmless (harmless_resource _)) fun r => ?_
    split
    · exact .pure _
    · exact .throw not_false
  · exact .throw not_false
  · exact .throw not_false
  · exact .throw not_false
  · refine .seq (reads _) fun v => .seq (supplied_lift fun f => pathText_supplied) fun text => ?_
    exact supplied_search text v

private theorem supplied_apply (caller : Option ResourceId) (params : Keyed Datum) (p : Projection) :
    Supplied (apply read caller params p) := by
  refine .seq (supplied_project reads caller p) fun value => ?_
  refine .seq (.of_harmless (harmless_onStore _)) fun edited => ?_
  split
  · exact .pure _
  · exact .throw not_false

private theorem supplied_buildParams (request : Request) (context : Context) :
    Supplied (buildParams read request context) := by
  refine .seq (.of_harmless (harmless_lift fun f => copyParams_harmless)) fun start => ?_
  refine .seq (.folds (fun params p _ => supplied_apply reads context.caller params p) _) fun built => ?_
  split
  · exact .of_harmless (harmless_onStore _)
  · exact .of_harmless (harmless_onStore _)

private theorem supplied_sendRequest (request : Request) (context : Context) :
    Supplied (sendRequest read request context) := by
  refine .seq (supplied_buildParams reads request context) fun params => ?_
  refine .of_harmless (.seq (harmless_callerOf _) fun caller => ?_)
  exact harmless_call _ _ _

private theorem supplied_runLoad (request : Request) (path : String) (context : Context) :
    Supplied (runLoad read request path context) := by
  refine .seq (supplied_sendRequest reads request context) fun response => ?_
  refine .seq (supplied_search path response.data) fun data => ?_
  split
  · intro g f h _ ran
    cases ran
  · exact .throw not_false

private theorem supplied_loadBy (id : ResourceId) (params : Json) :
    Supplied (loadBy read id params) := by
  refine .seq (.of_harmless (harmless_resource id)) fun r =>
    .seq (.of_harmless (harmless_typeOf _)) fun type => ?_
  split
  · exact supplied_runLoad reads _ _ _
  · exact .throw not_false

private theorem supplied_loadedBy (id : ResourceId) : Supplied (loadedBy read id) := by
  have loads : Supplied (loadBy read id .null >>= fun _ => cachedOr (return .null) id) :=
    .seq (supplied_loadBy reads id .null) fun _ => .of_harmless (harmless_cachedOr (.pure _) id)
  intro g f h _ ran
  unfold loadedBy at ran
  rw [runIn_tryCatch] at ran
  rcases went : runIn (loadBy read id .null >>= fun _ => cachedOr (return .null) id) g with ⟨e | v, mid⟩
  · rw [went] at ran
    dsimp only at ran
    split at ran
    · have refused : ∀ r : Resource,
          Supplied (fail (.unknownOperation "data" (some r.type.name)) : Act Datum) :=
        fun r => supplied_fail not_false
      exact Supplied.seq (.of_harmless (harmless_resource id)) refused mid f h trivial ran
    · cases ran
      exact loads g _ _ trivial went
  · rw [went] at ran
    cases ran

end Reading

private theorem supplied_cachedOr {otherwise : Act Datum} (supplied : Supplied otherwise)
    (id : ResourceId) :
    Supplied (cachedOr otherwise id) := by
  refine .seq (.of_harmless (harmless_resource id)) fun r => ?_
  split
  · exact .pure _
  · exact supplied

/-- However deep loads lie inside each other, none of them asks for an argument. -/
theorem supplied_dataWithin (depth : Nat) (id : ResourceId) : Supplied (dataWithin depth id) := by
  induction depth generalizing id with
  | zero => exact supplied_cachedOr (supplied_fail (f := .misuse .endless) not_false) id
  | succ depth ih => exact supplied_cachedOr (supplied_loadedBy ih id) id

theorem supplied_data (id : ResourceId) : Supplied (data id) :=
  supplied_cachedOr (supplied_loadedBy (supplied_dataWithin _) id) id

/-! ## Building -/

/-- Only a source that takes the argument asks for one. -/
theorem supplied_extract {s : IdentifierSource} (plain : s.kind ≠ .argument) :
    Supplied (extract context s) := by
  unfold extract
  split
  · next kind => exact absurd kind plain
  · refine .seq (.of_harmless (harmless_callerOf _)) fun caller => ?_
    split
    · exact .pure _
    · exact .throw not_false
  · split
    · exact .seq (supplied_data _) fun v => supplied_search _ v
    · exact .throw not_false
  · exact .of_harmless (harmless_sentParameter _ _)
  · exact supplied_search _ _
  · exact .throw not_false

private theorem plain_of_unargued {b : Builder} (unargued : b.Unargued) :
    ∀ s ∈ b.allSources, s.kind ≠ .argument := by
  intro s member
  rcases List.mem_append.mp member with source | data
  · exact unargued s source
  · unfold Builder.dataSource? at data
    split at data
    · split at data
      · cases data
      · obtain rfl := List.mem_singleton.mp data
        exact nofun
    · cases data

private theorem supplied_buildOne (b : Builder) (values : Keyed Datum) :
    Supplied (buildOne b context values) := by
  refine .of_harmless
    (.seq (harmless_callerOf _) fun caller => .seq (harmless_construct _ _ _ _ _) fun id => ?_)
  dsimp only
  split
  · refine .seq (fun g f h _ ran => ?_) fun _ => .pure _
    cases ran
  · exact .pure _

private theorem supplied_build {b : Builder} (unargued : b.Unargued) : Supplied (build b context) := by
  have extracts : Supplied (extractAll b context) := .folds (fun values s member =>
    .seq (supplied_extract (plain_of_unargued unargued s member)) fun v => .pure _) _
  refine .seq extracts fun values => ?_
  split
  · refine .seq .get fun g => .seq (.maps fun row _ => supplied_buildOne b row) fun members => ?_
    refine .seq (fun g f h _ ran => ?_) fun serial => .pure _
    cases ran
  · exact .seq (supplied_buildOne b values) fun id => .pure _

/-- A source that takes an argument fails where none is passed. -/
theorem extracting_vain {sources : List IdentifierSource} (argued : ∃ s ∈ sources, s.kind = .argument)
    (bare : context.argument = .null) (values : Keyed Datum) (g : Graph) : ∃ f, (runIn (sources.foldlM
      (fun values s => do return Keyed.put values s.target (← extract context s)) values) g).1 =
        .error f := by
  induction sources generalizing values g with
  | nil =>
    obtain ⟨s, none, _⟩ := argued
    cases none
  | cons first rest ih =>
    rw [List.foldlM_cons, runIn_bind, runIn_bind]
    rcases ran : runIn (extract context first) g with ⟨f | v, mid⟩
    · exact ⟨f, rfl⟩
    · obtain ⟨s, listed, kind⟩ := argued
      rcases List.mem_cons.mp listed with rfl | later
      · unfold extract at ran
        rw [kind, bare] at ran
        cases ran
      · exact ih ⟨s, later, kind⟩ _ mid

/-- Nothing is built by a builder that takes an argument, where none is passed. -/
theorem build_vain {b : Builder} (argued : ∃ s ∈ b.sources, s.kind = .argument)
    (bare : context.argument = .null)
    (g : Graph) : ∃ f, (runIn (build b context) g).1 = .error f := by
  obtain ⟨s, member, kind⟩ := argued
  obtain ⟨f, failed⟩ := extracting_vain ⟨s, List.mem_append_left _ member, kind⟩ bare [] g
  refine ⟨f, ?_⟩
  have stops : (runIn (extractAll b context) g).1 = .error f := failed
  unfold build
  rw [runIn_bind]
  rcases ran : runIn (extractAll b context) g with ⟨e | values, mid⟩ <;> rw [ran] at stops
  · cases stops
    rfl
  · cases stops

/-! ## Operations -/

/-- Whatever an operation is invoked with, it asks for no argument if its builder takes none. -/
theorem supplied_invoke {o : Operation} (unargued : ∀ b, o.builder? = some b → b.Unargued) :
    Supplied (invoke o context) := by
  have sends : ∀ request, Supplied (sendRequest data request context) := fun request =>
    supplied_sendRequest supplied_data request context
  have begins : ∀ harvest progress, Supplied (enumerate harvest context progress) := by
    intro harvest progress g f h _ ran
    cases ran
  unfold invoke
  cases work : o.work with
  | basic request => exact .seq (sends request) fun response => .pure _
  | data request path =>
    exact .seq (sends request) fun response => .seq (supplied_search _ _) fun v => .pure _
  | enumerateData request path => exact .seq (begins _ _) fun x => .pure _
  | resource request b =>
    have plain := unargued b (by simp [Operation.builder?, work])
    exact .seq (sends request) fun response => .seq (supplied_build plain) fun built => .pure _
  | enumerateResource request b => exact .seq (begins _ _) fun x => .pure _
  | reference b =>
    exact .seq (supplied_build (unargued b (by simp [Operation.builder?, work]))) fun built => .pure _
  | load request path =>
    refine .seq (supplied_runLoad supplied_data _ _ _) fun _ => ?_
    split
    · exact .pure _
    · exact .throw not_false

/-- The call of an operation that is no reference asks for no argument if its builder takes none. -/
theorem supplied_callOperation {id : ResourceId} {name : String} {o : Operation}
    (other : o.kind ≠ .reference) (unargued : ∀ b, o.builder? = some b → b.Unargued)
    (unnamed : List Json) (named : Keyed Json) :
    Supplied (callOperation id name o unnamed named) := by
  unfold callOperation
  split
  · next b work => exact absurd (by simp [Operation.kind, work]) other
  · refine .seq (.of_harmless (harmless_lift fun f => callParams_harmless)) fun params => ?_
    exact supplied_invoke unargued

/-! ## Enumerations -/

private theorem supplied_nextPage (p : Paging) : Supplied (nextPage p) := by
  refine .seq (.of_harmless (harmless_client _)) fun c => ?_
  split
  · exact .of_harmless (harmless_preparedPage _ _)
  · refine .of_harmless (.seq (harmless_lift fun f => route_harmless) fun route => ?_)
    exact .seq (harmless_objectOf _) fun params => harmless_sentPage _ _ _ _
  · exact .of_harmless (harmless_preparedPage _ _)
  · split
    · exact .pure _
    · next pagination _ =>
      refine .seq (.seq (supplied_search _ _) fun token =>
        .of_harmless (.seq (harmless_opened _) fun _ => .pure _))
        fun token => ?_
      split
      · exact .pure _
      · refine .of_harmless
          (.seq (.seq (harmless_opened _) fun _ => harmless_onStore _) fun params => ?_)
        exact harmless_sentPage _ _ _ _
  · exact .throw not_false
  · exact .pure _
  · exact .pure _

private theorem supplied_harvestPage {harvest : Harvest}
    (unargued : ∀ b, harvest = .resources b → b.Unargued)
    (page : Response) : Supplied (harvestPage harvest context page) := by
  cases harvest with
  | values path => exact .seq (supplied_search _ _) fun v => .of_harmless (harmless_valueElements v)
  | resources b =>
    refine .seq (supplied_build (unargued b rfl)) fun built => ?_
    split
    · exact .pure _
    · exact .throw not_false
  | responses => exact .pure _

private theorem supplied_seek {harvest : Harvest} (unargued : ∀ b, harvest = .resources b → b.Unargued)
    (limit : Nat)
    (p : Paging) : Supplied (seek harvest context limit p) := by
  induction limit generalizing p with
  | zero => exact .pure _
  | succ limit ih =>
    refine .seq (supplied_nextPage p) fun asked => ?_
    split
    · exact .pure _
    · refine .seq (supplied_harvestPage unargued _) fun ready => ?_
      refine .seq (.of_harmless (harmless_takeReady ready)) fun taken => ?_
      split
      · exact .pure _
      · exact ih _

private theorem supplied_setProgress (x : EnumerationId) (progress : Progress) :
    Supplied (setProgress x progress) := by
  intro g f h _ ran
  cases ran

private theorem supplied_advance {x : EnumerationId} {e : Enumeration} {paging : Act Paging}
    (unargued : ∀ b, e.harvest = .resources b → b.Unargued) (opens : Supplied paging) :
    Supplied (advance x e paging) := by
  refine .seq (supplied_setProgress _ _) fun _ => .seq opens fun start => ?_
  refine .seq (.of_harmless (harmless_client _)) fun c =>
    .seq (supplied_seek unargued _ _) fun found => ?_
  split
  · exact .seq (supplied_setProgress _ _) fun _ => .pure _
  · exact .pure _

/-- A step of an enumeration asks for no argument if the builder that it uses takes none. -/
theorem supplied_next {x : EnumerationId} {e : Enumeration} (there : g.enumerations[x]? = some e)
    (unargued : ∀ b, e.harvest = .resources b → b.Unargued) {f : Failure}
    (failed : (runIn (next x) g).1 = .error f) : ¬ f.LacksArgument := by
  obtain ⟨h, ran⟩ : ∃ h, runIn (next x) g = (.error f, h) := ⟨_, Prod.ext failed rfl⟩
  unfold next at ran
  rw [runIn_bind, runIn_get] at ran
  dsimp only at ran
  rw [there] at ran
  dsimp only at ran
  split at ran
  · cases ran
  · refine supplied_advance unargued
      (.seq (supplied_buildParams supplied_data _ _) fun params => ?_) g f h trivial ran
    exact .seq (.of_harmless (harmless_callerOf _)) fun caller => .pure _
  · next paging ready _ =>
    refine Supplied.seq (supplied_setProgress x .exhausted) (fun _ => ?_) g f h trivial ran
    refine .seq (.of_harmless (harmless_takeReady ready)) fun taken => ?_
    split
    · exact .seq (supplied_setProgress _ _) fun _ => .pure _
    · exact supplied_advance unargued (.pure _)

/-- Where nothing can be built from a page, no element is found on the pages that follow. -/
theorem seek_vain {b : Builder} (argued : ∃ s ∈ b.sources, s.kind = .argument)
    (bare : context.argument = .null) (limit : Nat) (p : Paging) (g : Graph) :
    ∀ found, (runIn (seek (.resources b) context limit p) g).1 ≠ .ok (some found) := by
  intro found gave
  cases limit with
  | zero => cases gave
  | succ limit =>
    unfold seek at gave
    rw [runIn_bind] at gave
    rcases asked : runIn (nextPage p) g with ⟨f | none | ⟨page, further⟩, mid⟩ <;> rw [asked] at gave
    · cases gave
    · cases gave
    · let paged : Context := { context with response := some page }
      have still : paged.argument = .null := bare
      obtain ⟨f, failed⟩ := build_vain argued still mid
      dsimp only at gave
      rw [runIn_bind] at gave
      unfold harvestPage at gave
      dsimp only at gave
      rw [runIn_bind] at gave
      rcases ran : runIn (build b { context with response := some page }) mid with
        ⟨e | built, last⟩ <;> rw [ran] at failed gave
      · cases gave
      · cases failed

private theorem next_vain {x : EnumerationId} {e : Enumeration} {b : Builder}
    (there : g.enumerations[x]? = some e) (harvest : e.harvest = .resources b)
    (argued : ∃ s ∈ b.sources, s.kind = .argument) (bare : e.context.argument = .null)
    (fresh : e.progress = .exhausted ∨ ∃ request, e.progress = .untouched request) (element : Element) :
    (runIn (next x) g).1 ≠ .ok (some element) := by
  intro gave
  unfold next at gave
  rw [runIn_bind, runIn_get] at gave
  dsimp only at gave
  rw [there] at gave
  dsimp only at gave
  rcases fresh with spent | ⟨request, untouched⟩
  · rw [spent] at gave
    cases gave
  · rw [untouched] at gave
    dsimp only at gave
    unfold advance at gave
    rw [runIn_bind_ok (runIn_setProgress _ _ _), runIn_bind] at gave
    rcases opened : runIn (openPaging request e.context) (g.withProgress x .exhausted) with
      ⟨f | start, mid⟩ <;>
      rw [opened] at gave
    · cases gave
    · dsimp only at gave
      rw [runIn_bind] at gave
      rcases known : runIn (client start.client) mid with ⟨f | c, looked⟩ <;> rw [known] at gave
      · cases gave
      · dsimp only at gave
        rw [runIn_bind, harvest] at gave
        have none := seek_vain argued bare (pageLimit start.method c + 2) start looked
        rcases ran : runIn (seek (.resources b) e.context (pageLimit start.method c + 2) start)
          looked with ⟨f | nothing | found, last⟩ <;> rw [ran] at gave none
        · cases gave
        · cases gave
        · exact none found rfl

/-- The call of an operation fails if its builder takes an argument, whatever the response is. -/
theorem callOperation_vain {id : ResourceId} {name : String} {o : Operation} {request : Request}
    {b : Builder} (work : o.work = .resource request b)
    (argued : ∃ s ∈ b.sources, s.kind = .argument) (unnamed : List Json) (named : Keyed Json)
    (g : Graph) :
    ∃ f, (runIn (callOperation id name o unnamed named) g).1 = .error f := by
  unfold callOperation
  rw [work]
  dsimp only
  rw [runIn_bind, runIn_liftResult]
  cases callParams unnamed named with
  | error f => exact ⟨f, rfl⟩
  | ok params =>
    let context : Context := { caller := some id, params }
    unfold invoke
    dsimp only
    rw [work]
    dsimp only
    rw [runIn_bind]
    rcases runIn (sendRequest data request context) g with ⟨f | response, mid⟩
    · exact ⟨f, rfl⟩
    · let answered : Context := { context with response := some response }
      have bare : answered.argument = .null := rfl
      obtain ⟨f, failed⟩ := build_vain argued bare mid
      refine ⟨f, ?_⟩
      dsimp only
      rw [runIn_bind]
      rcases ran : runIn (build b { context with response := some response }) mid with ⟨e | built, h⟩ <;>
        rw [ran] at failed
      · cases failed
        rfl
      · cases failed

end Act

/-! ## Compiled models -/

/-- The identifiers that no source of the builder gives, but one that takes an argument. -/
def Builder.leftOpen (b : Builder) (declared : List String) : List String :=
  declared.filter fun name => !b.sources.any fun s => s.kind != .argument && s.target == name

namespace Builder

variable {b : Builder} {scope : Scope} {declared owned : List String} {name : String}

private theorem mem_leftOpen : name ∈ b.leftOpen declared ↔
    name ∈ declared ∧ ∀ s ∈ b.sources, s.kind ≠ .argument → s.target ≠ name := by
  simp [leftOpen]

/-- Two sources that take the argument are the same. -/
theorem ArgumentLast.same (last : b.ArgumentLast) {s t : IdentifierSource} (listed : s ∈ b.sources)
    (kind : s.kind = .argument) (also : t ∈ b.sources) (alike : t.kind = .argument) : s = t := by
  have ends : ∀ u ∈ b.sources, u.kind = .argument → b.sources.getLast? = some u := by
    intro u member takes
    rcases List.eq_nil_or_concat' b.sources with none | ⟨front, final, whole⟩
    · rw [none] at member
      cases member
    · rw [whole] at member ⊢
      rcases List.mem_append.mp member with early | late
      · exact absurd takes (last u (by rw [whole]; simpa using early))
      · obtain rfl := List.mem_singleton.mp late
        simp
  exact Option.some.inj ((ends s listed kind).symm.trans (ends t also alike))

/-- A source takes the argument exactly for the one identifier that the others leave open. -/
theorem Sound.leftOpen_iff (sound : b.Sound scope owned) (covers : b.Covers declared) :
    name ∈ b.leftOpen declared ↔ ∃ s ∈ b.sources, s.kind = .argument ∧ s.target = name := by
  rw [mem_leftOpen]
  constructor
  · rintro ⟨member, uncovered⟩
    obtain ⟨s, listed, target⟩ := covers.covered name member
    refine ⟨s, listed, ?_, target⟩
    by_contra kind
    exact uncovered s listed kind target
  · rintro ⟨s, listed, kind, rfl⟩
    exact ⟨covers.known s listed, sound.apart s listed kind⟩

theorem Sound.unargued (sound : b.Sound scope owned) (covers : b.Covers declared)
    (filled : b.leftOpen declared = []) : b.Unargued := by
  intro s listed kind
  have left := (sound.leftOpen_iff covers).mpr ⟨s, listed, kind, rfl⟩
  rw [filled] at left
  cases left

theorem Sound.leftOpen_single (sound : b.Sound scope owned) (covers : b.Covers declared)
    (distinct : declared.Nodup)
    (left : name ∈ b.leftOpen declared) : b.leftOpen declared = [name] := by
  have alike : ∀ other ∈ b.leftOpen declared, other = name := by
    intro other member
    obtain ⟨s, listed, kind, rfl⟩ := (sound.leftOpen_iff covers).mp left
    obtain ⟨t, also, takes, rfl⟩ := (sound.leftOpen_iff covers).mp member
    rw [sound.argument.same listed kind also takes]
  have apart : (b.leftOpen declared).Nodup := distinct.filter _
  exact List.perm_singleton.mp
    ((List.perm_ext_iff_of_nodup apart (List.nodup_singleton name)).mpr fun other =>
    ⟨fun member => List.mem_singleton.mpr (alike other member),
      fun member => List.mem_singleton.mp member ▸ left⟩)

end Builder

namespace Model

variable {m : Model} {scope : Scope} {owned : List String} {b : Builder}

/-- The identifiers of its type that the sources of a builder leave to an argument. -/
def leftOpen (m : Model) (b : Builder) : List String :=
  match m.types[b.target.index]? with
  | some (_, type) => b.leftOpen type.identifiers
  | none => []

/-- What a builder of a sound model leaves open is one identifier at most, and then it takes an
argument. -/
theorem Sound.leftOpen_cases (sound : m.Sound scope) (made : b.Sound scope owned) :
    (∃ type, m.types[b.target.index]? = some (b.target.name, type) ∧
      m.leftOpen b = b.leftOpen type.identifiers) ∧
      (m.leftOpen b = [] ∧ b.Unargued ∨ ∃ name, m.leftOpen b = [name] ∧ ∃ s ∈ b.sources,
        s.kind = .argument) := by
  obtain ⟨entry, there, target, covers⟩ := made.target
  obtain ⟨type, found, same⟩ := sound.located entry there
  have distinct : type.identifiers.Nodup :=
    (sound.types _ (List.mem_of_getElem? found)).names.identifiers
  rw [← target] at found
  rw [← same] at covers
  have left : m.leftOpen b = b.leftOpen type.identifiers := by
    unfold leftOpen
    rw [found]
  refine ⟨⟨type, found, left⟩, ?_⟩
  rw [left]
  rcases filled : b.leftOpen type.identifiers with _ | ⟨name, others⟩
  · exact .inl ⟨rfl, made.unargued covers filled⟩
  · have member : name ∈ b.leftOpen type.identifiers := filled ▸ List.mem_cons_self
    obtain ⟨s, listed, kind, _⟩ := (made.leftOpen_iff covers).mp member
    exact .inr ⟨name, filled ▸ made.leftOpen_single covers distinct member, s, listed, kind⟩

/-- Operations of a compiled model that are no references, so that the caller can pass them no
argument. If the builder of one gives every identifier of its type, neither a call of it nor a step
of its enumeration ever fails for want of an argument. Else it leaves one identifier open, and then
no call of it succeeds, and its enumeration has no elements. -/
theorem arguments_of_compile {given : Json} {service : String} {factory : Option Nat}
    (compiled : compile given service factory = .ok m) {type : ResourceType}
    (own : type = m.root ∨ ∃ word, (word, type) ∈ m.types) {name : String} {o : Operation}
    (listed : (name, o) ∈ type.operations) (other : o.kind ≠ .reference) :
    (∀ b, o.builder? = some b → (m.leftOpen b).length ≤ 1 ∧ ∃ target,
      m.types[b.target.index]? = some (b.target.name, target) ∧
        m.leftOpen b = b.leftOpen target.identifiers) ∧
    ((∀ b, o.builder? = some b → m.leftOpen b = []) →
      (∀ (g : Graph) id unnamed named f,
        (runIn (Act.callOperation id name o unnamed named) g).1 = .error f →
        ¬ f.LacksArgument) ∧
      ∀ (g : Graph) x e f, g.enumerations[x]? = some e →
        (∀ b, e.harvest = .resources b → o.builder? = some b) →
        (runIn (Act.next x) g).1 = .error f → ¬ f.LacksArgument) ∧
    ∀ b, o.builder? = some b → m.leftOpen b ≠ [] →
      (∀ request, o.work = .resource request b → ∀ (g : Graph) id unnamed named,
        ∃ f, (runIn (Act.callOperation id name o unnamed named) g).1 = .error f) ∧
      ∀ (g : Graph) (x : EnumerationId) e, g.enumerations[x]? = some e → e.harvest = .resources b →
        e.context.argument = .null →
          (e.progress = .exhausted ∨ ∃ request, e.progress = .untouched request) →
          ∀ element, (runIn (Act.next x) g).1 ≠ .ok (some element) := by
  obtain ⟨d, _, declared, made⟩ := declared_of_compile compiled
  obtain ⟨scope, sound, _, _⟩ := sound_of_document declared made
  have fine : type.Sound scope := by
    rcases own with rfl | ⟨word, member⟩
    · exact sound.root
    · exact sound.types _ member
  have builders : ∀ b, o.builder? = some b → b.Sound scope type.identifiers :=
    (fine.operations _ listed).builder
  refine ⟨fun b has => ?_, fun filled => ?_, fun b has left => ?_⟩
  · obtain ⟨target, ⟨none, _⟩ | ⟨word, one, _⟩⟩ := sound.leftOpen_cases (builders b has)
    · exact ⟨by simp [none], target⟩
    · exact ⟨by simp [one], target⟩
  · have unargued : ∀ b, o.builder? = some b → b.Unargued := by
      intro b has
      obtain ⟨_, ⟨_, plain⟩ | ⟨word, one, _⟩⟩ := sound.leftOpen_cases (builders b has)
      · exact plain
      · rw [filled b has] at one
        cases one
    refine ⟨fun g id unnamed named f failed => ?_, fun g x e f there uses failed => ?_⟩
    · exact Act.supplied_callOperation other unargued unnamed named g f _ trivial (Prod.ext failed rfl)
    · exact Act.supplied_next there (fun b harvest => unargued b (uses b harvest)) failed
  · obtain ⟨_, ⟨none, _⟩ | ⟨_, _, argued⟩⟩ := sound.leftOpen_cases (builders b has)
    · exact absurd none left
    · refine ⟨fun request work g id unnamed named => ?_,
        fun g x e there harvest bare fresh element => ?_⟩
      · exact Act.callOperation_vain work argued unnamed named g
      · exact Act.next_vain there harvest argued bare fresh element

/-- A document whose service finds a user, with these sources. -/
def finding (sources : List Json) : Json :=
  .object [
    ("service", .object [("actions", .object [("find", .object [
      ("request", .object [("operation", .str "Find")]),
      ("resource", .object [("type", .str "user"), ("identifiers", .list sources)])])])]),
    ("resources", .object [("user", .object [("identifiers", .list [.str "id"])])])]

/-- The kind of the operation to find a user in the model of that document, and what its builder
leaves open. -/
def findKind (m : Model) : Option (OperationKind × Option (List String)) :=
  (Keyed.get? m.root.operations "find").map fun o => (o.kind, o.builder?.map m.leftOpen)

/-- A source that gives the identifier of a user from the parameters that were sent. -/
def sentId : Json :=
  .object [("target", .str "id"), ("sourceType", .str "requestParameter"), ("source", .str "Id")]

/-- Where that source is given, finding a user never fails for want of an argument. -/
theorem arguments_finding : ∃ m o, compile (finding [sentId]) "team" none = .ok m ∧
    ("find", o) ∈ m.root.operations ∧ o.kind ≠ .reference ∧
      ∀ (g : Graph) id unnamed named f,
        (runIn (Act.callOperation id "find" o unnamed named) g).1 = .error f →
        ¬ f.LacksArgument := by
  have kinds : (compile (finding [sentId]) "team" none).toOption.map findKind =
      some (some (.resource, some [])) := by decide +kernel
  cases compiled : compile (finding [sentId]) "team" none with
  | error fault => simp [compiled, Except.toOption] at kinds
  | ok m =>
    rw [compiled] at kinds
    simp only [Except.toOption, Option.map_some, Option.some.injEq, findKind, Option.map_eq_some_iff,
      Prod.mk.injEq] at kinds
    obtain ⟨o, found, kind, b, has, filled⟩ := kinds
    have other : o.kind ≠ .reference := by simp [kind]
    have listed := Keyed.mem_of_get? found
    refine ⟨m, o, rfl, listed, other, ?_⟩
    refine ((arguments_of_compile compiled (.inl rfl) listed other).2.1 fun b' has' => ?_).1
    cases has.symm.trans has'
    exact filled

/-- What it gives to find a user from the root of that document, and what the client was asked. -/
def findUser (sources : List Json) : Option (Except Failure Outcome × List Exchange) :=
  (compile (finding sources) "team" none).toOption.map fun m =>
    let found := runIn (do
      let root ← Act.root m (some 0)
      Act.callNamed root "find" [] []) (Graph.ofModel m [.prepared {}])
    (found.1, found.2.exchanges.toList)

/-- A document compiles although a builder leaves an identifier open to an argument that no one can
pass; the client is asked, and the call fails. -/
theorem findUser_lacks :
    (findUser []).map Prod.fst = some (.error (.missingArgument "id")) ∧
      (findUser []).map Prod.snd = some [.call 0 "find" (.object [])] := by
  constructor <;> decide +kernel

end Model

end ResourceGraph
