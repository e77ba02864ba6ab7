import ResourceGraph.Proofs.Traffic

/-!
Which calls an operation makes, and in which order. Its own call is made once; the data of its
resource is loaded once if something reads it and it is not there, before the own call where a
projection reads it, and after it where only the builder does. To begin an enumeration calls
nothing.
-/

namespace ResourceGraph

open ResourceGraph.Graph Store

/-- A projection of the request reads the data of the resource. -/
def Request.readsData (r : Request) : Bool := r.params.any fun p => p.source.kind == .dataMember

/-- A source of the builder reads the data of the resource. -/
def Builder.readsData (b : Builder) : Bool := b.allSources.any fun s => s.kind == .dataMember

/-- The resource keeps a reference of this name. -/
def Graph.keeps (g : Graph) (id : ResourceId) (name : String) : Bool :=
  ((g.resources[id]?).bind fun r => Keyed.get? r.references name).isSome

/-- The calls that an operation makes when it is called under a name of the resource. -/
def Operation.demands (o : Operation) (g : Graph) (id : ResourceId) (name : String) : List Demand :=
  match o.work with
  | .basic request | .data request _ | .load request _ =>
    (if request.readsData then g.reading id else []) ++ [.single request.method]
  | .resource request b =>
    if request.readsData then g.reading id ++ [.single request.method]
    else .single request.method :: if b.readsData then g.reading id else []
  | .reference b =>
    if b.readsData && (b.requiresArgument || !g.keeps id name) then g.reading id else []
  | .enumerateData _ _ | .enumerateResource _ _ => []

namespace Need

/-- The data is needed where it is read. -/
def ofReads (reads : Bool) : List Need := if reads then [data] else []

theorem demands_reads {α : Type} (reads : α → Bool) (items : List α) (first : List Demand)
    (rest : List Need) :
    demands first (items.flatMap (fun a => ofReads (reads a)) ++ rest) =
      if items.any reads then first ++ demands [] rest else demands first rest := by
  induction items generalizing first with
  | nil => rfl
  | cons item items ih =>
    rw [List.flatMap_cons, List.append_assoc, List.any_cons]
    cases reads item with
    | false => exact ih first
    | true =>
      change first ++ demands [] (_ ++ rest) = _
      rw [ih]
      simp

end Need

namespace Act

variable {c : ClientId} {id : ResourceId} {α β : Type} {needs further : List Need} {g h : Graph}
  {context : Context}

/-! ## Requests -/

/-- What a request needs before it is sent. -/
def needsOfRequest (r : Request) : List Need :=
  r.params.flatMap fun p => Need.ofReads (p.source.kind == .dataMember)

/-- What a builder needs. -/
def needsOfBuilder (b : Builder) : List Need :=
  b.allSources.flatMap fun s => Need.ofReads (s.kind == .dataMember)

theorem demands_of_request (first : List Demand) (r : Request) (rest : List Need) :
    Need.demands first (needsOfRequest r ++ rest) =
      if r.readsData then first ++ Need.demands [] rest else Need.demands first rest :=
  Need.demands_reads _ _ _ _

theorem demands_of_builder (first : List Demand) (b : Builder) :
    Need.demands first (needsOfBuilder b) = if b.readsData then first else [] := by
  have demands :=
    Need.demands_reads (fun s : IdentifierSource => s.kind == .dataMember) b.allSources first []
  rw [List.append_nil] at demands
  refine demands.trans ?_
  unfold Builder.readsData
  split <;> simp [Need.demands]

private theorem demands_of_sent (first : List Demand) (r : Request) :
    Need.demands first (needsOfRequest r ++ [.call (.single r.method)]) =
      (if r.readsData then first else []) ++ [.single r.method] := by
  rw [demands_of_request]
  split <;> rfl

private theorem project_takes (ready : g.Ready c id) (p : Projection) :
    Takes c id (Need.ofReads (p.source.kind == .dataMember)) (project data (some id) p) g := by
  unfold project
  cases p.source with
  | text _ | integer _ | flag _ => exact .pure ready _
  | identifier name =>
    cases name with
    | str name =>
      refine .lookAt (resource_looks id) fun r _ => ?_
      split
      · exact .pure ready _
      · exact .fail _
    | _ => exact .fail _
  | dataMember path =>
    refine .andQuiet ready (data_takes ready) fun v => ?_
    exact .bind quiet_lasting (quiet_of_looks (lift_looks _)) fun text =>
      search_keeps quiet_storing text v

private theorem apply_takes (ready : g.Ready c id) (params : Keyed Datum) (p : Projection) :
    Takes c id (Need.ofReads (p.source.kind == .dataMember)) (apply data (some id) params p) g := by
  refine .andQuiet ready (project_takes ready p) fun value => ?_
  refine .bind quiet_lasting (onStore_keeps quiet_storing (write_learns _ value params)) fun edited => ?_
  split
  · exact .pure quiet_lasting _
  · exact .throw quiet_lasting _

theorem buildParams_takes (ready : g.Ready c id) (called : context.caller = some id)
    (request : Request) :
    Takes c id (needsOfRequest request) (buildParams data request context) g := by
  refine .lookAt (lift_looks _) fun start _ => ?_
  rw [called]
  refine .andQuiet ready (.foldlM ready (fun g params p _ ready => apply_takes ready params p) _)
    fun built => ?_
  split
  · exact share_keeps quiet_storing.taking _
  · exact share_keeps quiet_storing.taking _

private theorem client_of_callerOf {r : Resource} (ready : g.Ready c id)
    (called : context.caller = some id)
    (ran : runIn (callerOf context) g = (.ok r, g)) : r.client = c := by
  obtain ⟨s, there, rfl⟩ := ready.calls
  unfold callerOf at ran
  rw [called] at ran
  cases there.symm.trans (resource_gives ran).1
  rfl

private theorem sendRequest_takes (ready : g.Ready c id) (called : context.caller = some id)
    (request : Request) :
    Takes c id (needsOfRequest request ++ [.call (.single request.method)])
      (sendRequest data request context) g := by
  refine .bind ready (buildParams_takes ready called request) fun params mid _ ready => ?_
  refine .lookAt (callerOf_looks context) fun r found => ?_
  rw [client_of_callerOf ready called found]
  exact call_takes c _ _ _

/-! ## Builders -/

private theorem extract_takes (ready : g.Ready c id) (called : context.caller = some id)
    (s : IdentifierSource) :
    Takes c id (Need.ofReads (s.kind == .dataMember)) (extract context s) g := by
  unfold extract
  cases s.kind with
  | argument =>
    dsimp only
    split
    · exact .fail _
    · exact .pure ready _
  | identifier =>
    refine .lookAt (callerOf_looks context) fun r _ => ?_
    split
    · exact .pure ready _
    · exact .fail _
  | dataMember =>
    dsimp only
    rw [called]
    exact .andQuiet ready (data_takes ready) fun v => search_keeps quiet_storing _ v
  | requestParameter =>
    cases context.response with
    | none => exact .fail _
    | some response => exact .quiet ready (quiet_of_looks (sentParameter_looks _ _))
  | responsePath =>
    cases context.response with
    | none => exact .fail _
    | some response => exact .quiet ready (search_keeps quiet_storing _ _)

theorem quiet_making : Making Quiet where
  lasting := quiet_lasting
  adds g r _ := by
    refine ⟨rfl, fun x s there => ⟨s, ?_, Resource.remains_lasting.refl s, rfl⟩, rfl, rfl⟩
    dsimp only
    rw [Array.getElem?_push, if_neg (Nat.ne_of_lt (Array.getElem?_eq_some_iff.mp there).1)]
    exact there

/-- A resource that is built is new, so that its data is that of no other one. -/
theorem buildOne_quiet (b : Builder) (context : Context) (values : Keyed Datum) :
    Keeps Quiet (buildOne b context values) := by
  intro g
  rcases ran : runIn (buildOne b context values) g with ⟨f | x, h⟩
  · rcases bind_fails.mp ran with failed | ⟨caller, mid, asked, failed⟩
    · exact (quiet_of_looks (callerOf_looks context)).related failed
    · obtain rfl := (callerOf_looks context).same asked
      rcases bind_fails.mp failed with failed | ⟨x, last, _, setting⟩
      · exact Keeps.related (construct_makes quiet_making b.target []
          (Keyed.erase values Builder.dataKey) (some caller.client) none) failed
      · split at setting <;> cases setting
  · obtain ⟨r, _, made, rfl, _⟩ := buildOne_gives ran
    exact quiet_making.adds g r made.new

private theorem newList_quiet : Keeps Quiet newList := fun _ => .of_same rfl rfl rfl rfl

theorem build_takes (ready : g.Ready c id) (context : Context) (called : context.caller = some id)
    (b : Builder) :
    Takes c id (needsOfBuilder b) (build b context) g := by
  refine .andQuiet ready (.foldlM ready (fun g values s _ ready => ?_) _) fun values => ?_
  · exact .andQuiet ready (extract_takes ready called s) fun _ => .pure quiet_lasting _
  · split
    · refine .bind quiet_lasting (.get quiet_lasting) fun now => ?_
      refine .bind quiet_lasting (.mapM quiet_lasting fun row _ => buildOne_quiet b context row)
        fun members => ?_
      exact .bind quiet_lasting newList_quiet fun _ => .pure quiet_lasting _
    · exact .bind quiet_lasting (buildOne_quiet b context values) fun _ => .pure quiet_lasting _

/-! ## Operations -/

private theorem enumerate_quiet (harvest : Harvest) (context : Context) (progress : Progress) :
    Keeps Quiet (enumerate harvest context progress) := fun _ => .of_same rfl rfl rfl rfl

/-- To give the resource its data, where it is being loaded. -/
theorem setData_issues {loading : Prop} (may : loading) (v : Datum) :
    Issues c id loading [] (setData id v) g where
  succeeds _ h ran := by
    cases ran
    exact (quiet_lasting.refl g).traffic.withData (.inl may) v
  fails f h ran := by cases ran

private theorem runLoad_issues {loading : Prop} (may : loading) (ready : g.Ready c id)
    (called : context.caller = some id) (request : Request) (path : String) :
    Issues c id loading ((if request.readsData then g.reading id else []) ++ [.single request.method])
      (runLoad data request path context) g := by
  have sent := (sendRequest_takes ready called request).toIssues
  rw [demands_of_sent] at sent
  refine sent.weaken.andThen fun response mid _ => ?_
  refine (issues_of_quiet (search_keeps quiet_storing _ _) mid).andThen fun v last _ => ?_
  rw [called]
  exact setData_issues may v

/-- The calls of an operation, if its builder is to build. -/
theorem invoke_issues (ready : g.Ready c id) (called : context.caller = some id) (o : Operation)
    {name : String}
    (builds : ∀ b, o.work = .reference b → (b.requiresArgument || !g.keeps id name) = true) :
    Issues c id (o.kind = .load) (o.demands g id name) (invoke o context) g := by
  unfold invoke Operation.demands
  cases work : o.work with
  | basic request =>
    have sent := Takes.andQuiet ready (sendRequest_takes ready called request)
      fun response => .pure quiet_lasting (Outcome.response response)
    exact sent.issues (demands_of_sent _ _)
  | data request path =>
    have sent := Takes.andQuiet ready (sendRequest_takes ready called request) fun response =>
      .bind quiet_lasting (search_keeps quiet_storing path response.data)
        fun v => .pure quiet_lasting (Outcome.value v)
    exact sent.issues (demands_of_sent _ _)
  | enumerateData request path =>
    exact issues_of_quiet (.bind quiet_lasting (enumerate_quiet _ _ _) fun _ => .pure quiet_lasting _) g
  | resource request builder =>
    have both := Takes.bind ready (sendRequest_takes ready called request) fun response mid _ ready =>
      Takes.andQuiet ready (build_takes ready { context with response := some response } called
        builder) fun built => .pure quiet_lasting (Outcome.built built)
    refine both.issues ?_
    rw [List.append_assoc, demands_of_request]
    simp only [List.cons_append, List.nil_append, Need.demands, demands_of_builder, ite_self]
  | enumerateResource request builder =>
    exact issues_of_quiet (.bind quiet_lasting (enumerate_quiet _ _ _) fun _ => .pure quiet_lasting _) g
  | reference builder =>
    have built := Takes.andQuiet ready (build_takes ready _ called builder)
      fun built => .pure quiet_lasting (Outcome.built built)
    refine built.issues ?_
    dsimp only
    rw [demands_of_builder, builds builder work, Bool.and_true]
  | load request path =>
    have loading : o.kind = .load := by simp [Operation.kind, work]
    refine (runLoad_issues loading ready called request path).andThen fun _ mid _ => ?_
    rw [called]
    exact issues_of_quiet (.pure quiet_lasting _) mid

/-- To keep a reference. -/
theorem keep_quiet (id : ResourceId) (name : String) (built : Built) :
    Keeps Quiet
      (changeResource id fun r => { r with references := Keyed.put r.references name built }) := by
  intro g
  refine ⟨rfl, fun x r there => ?_, rfl, rfl⟩
  rw [runIn_changeResource]
  dsimp only
  rw [Array.getElem?_modify, there]
  split
  · exact ⟨_, rfl, ⟨rfl, rfl, rfl⟩, rfl⟩
  · exact ⟨r, rfl, Resource.remains_lasting.refl r, rfl⟩

/-- A reference without argument is built unless it is kept. -/
theorem keptReference_issues {loading : Prop} (ready : g.Ready c id) (name : String) (b : Builder) :
    Issues c id loading (if b.readsData && !g.keeps id name then g.reading id else [])
      (keptReference id name b) g := by
  obtain ⟨r, there, _⟩ := ready.calls
  have resourced : runIn (resource id) g = (.ok r, g) := resource_runs there
  have kept : g.keeps id name = (Keyed.get? r.references name).isSome := by simp [Graph.keeps, there]
  refine .lookAt (resource_looks id) fun s found => ?_
  cases resourced.symm.trans found
  rw [kept]
  cases Keyed.get? r.references name with
  | some built =>
    simp only [Option.isSome_some, Bool.not_true, Bool.and_false]
    exact issues_of_quiet (.pure quiet_lasting built) g
  | none =>
    have built := Takes.andQuiet ready (build_takes ready { caller := some id } rfl b)
      fun built => .bind quiet_lasting (keep_quiet id name built) fun _ => .pure quiet_lasting built
    exact built.issues (by simp [demands_of_builder])

/-- The calls that an operation makes when it is called under a name of the resource. -/
theorem callOperation_issues (ready : g.Ready c id) (name : String) (o : Operation) (unnamed : List Json)
    (named : Keyed Json) :
    Issues c id (o.kind = .load) (o.demands g id name) (callOperation id name o unnamed named) g := by
  have invoked (apart : ∀ b, o.work ≠ .reference b) :
      Issues c id (o.kind = .load) (o.demands g id name) (do
        invoke o { caller := some id, params := ← lift (callParams unnamed named) }) g :=
    .lookAt (lift_looks _) fun params _ => invoke_issues ready rfl o fun b work => absurd work (apart b)
  unfold callOperation
  split
  · next builder work =>
    have demands : o.demands g id name =
        if builder.readsData && (builder.requiresArgument || !g.keeps id name) then
          g.reading id else [] := by
      simp [Operation.demands, work]
    rw [demands]
    cases builder.requiresArgument with
    | true =>
      refine .lookAt (lift_looks _) fun given _ => ?_
      have built : Takes c id (needsOfBuilder builder) (do
          let argument ← receive given
          return Outcome.built (← build builder { caller := some id, argument })) g :=
        .look ready (receive_keeps quiet_storing.taking given) fun argument mid _ ready =>
          .andQuiet ready (build_takes ready _ rfl builder) fun built => .pure quiet_lasting _
      exact built.issues (by simp [demands_of_builder])
    | false =>
      rw [Bool.false_or, if_neg Bool.false_ne_true]
      by_cases bare : (unnamed.isEmpty && List.isEmpty named) = true
      · rw [if_pos bare]
        exact (keptReference_issues ready name builder).andThen fun built mid _ =>
          issues_of_quiet (.pure quiet_lasting (Outcome.built built)) mid
      · rw [if_neg bare]
        exact .fail _
  · next apart => exact invoked apart

/-- To call for a load makes the calls that the load makes. -/
theorem callLoad_issues_of_load {loading : Prop} {demands : List Demand}
    (loads : ∀ params, Issues c id loading demands (load id params) g) (unnamed : List Json)
    (named : Keyed Json) : Issues c id loading demands (callLoad id unnamed named) g := by
  unfold callLoad
  split
  · exact .fail _
  · refine .lookAt (resource_looks id) fun r found => ?_
    refine .lookAt (typeOf_looks _) fun type _ => ?_
    split
    · exact .fail _
    · refine .lookAt (lift_looks _) fun params _ => ?_
      exact (loads params).andThen fun _ mid _ => issues_of_quiet (.pure quiet_lasting _) mid

/-- To load a resource is one call of its load method, if its type can be loaded. -/
theorem callLoad_issues (ready : g.Ready c id) (unnamed : List Json) (named : Keyed Json) :
    Issues c id True (g.loadCall id) (callLoad id unnamed named) g :=
  callLoad_issues_of_load (load_issues ready) unnamed named

end Act

end ResourceGraph
