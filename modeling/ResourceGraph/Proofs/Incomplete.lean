import ResourceGraph.Proofs.Enumeration
import ResourceGraph.Proofs.Offspring

/-!
Building with an identifier that is null or absent. No resource is made of values that lack an
identifier of its type, so a builder with such values among those for its resources fails, and so
does whatever was done to come to the builder: a reference, an action, or the step of an enumeration
that comes to such a page. Nothing is kept of it, and the enumeration has ended.
-/

namespace ResourceGraph

open ResourceGraph.Graph Store Outcome

/-- An identifier that the type declares is null or absent. -/
def ResourceType.Lacks (t : ResourceType) (values : Keyed Datum) : Prop :=
  ∃ name ∈ t.identifiers, (Keyed.get? values name).getD .null = .null

/-- The values for each resource that a builder is to make. -/
def Builder.rowsOf (b : Builder) (opened : Datum → Datum) (values : Keyed Datum) : List (Keyed Datum) :=
  if b.isPlural then rows opened b.pluralTargets values else [values]

/-- With whatever its sources give, the builder would have to make a resource that lacks an
identifier. -/
def Builder.Incomplete (b : Builder) (context : Context) (g : Graph) : Prop :=
  ∃ type, g.types[b.target.index]? = some type ∧
    ∀ values h, runIn (Act.extractAll b context) g = (.ok values, h) →
      ∃ row ∈ b.rowsOf h.store.opened values, type.Lacks row

/-- To call the operation of a resource comes to build: a reference with the argument, a reference
without one that is not kept yet, or what a response of the client says. -/
inductive Operation.Builds (o : Operation) (id : ResourceId) (name : String) (unnamed : List Json)
    (named : Keyed Json) (g : Graph) : Builder → Context → Graph → Prop
  | argument {b : Builder} {given : Json} {argument : Datum} {h : Graph} (work : o.work = .reference b)
    (requires : b.requiresArgument = true) (taken : Act.callArgument unnamed named = .ok given)
    (received : runIn (Act.receive given) g = (.ok argument, h)) :
    o.Builds id name unnamed named g b { caller := some id, argument } h
  | unkept {b : Builder} {r : Resource} (work : o.work = .reference b)
    (plain : b.requiresArgument = false) (bare : unnamed = [] ∧ named = [])
    (there : g.resources[id]? = some r) (fresh : Keyed.get? r.references name = none) :
    o.Builds id name unnamed named g b { caller := some id } g
  | answered {b : Builder} {request : Request} {params : Json} {response : Response} {h : Graph}
    (work : o.work = .resource request b) (taken : Act.callParams unnamed named = .ok params)
    (sent : runIn (Act.sendRequest Act.data request { caller := some id, params }) g =
      (.ok response, h)) :
    o.Builds id name unnamed named g b { caller := some id, params, response := some response } h

/-- The next step of the enumeration goes on to ask for pages, with this paging and in this graph. -/
inductive Enumeration.Resumes (e : Enumeration) (id : EnumerationId) (g : Graph) : Paging → Graph → Prop
  | first {request : Request} {start : Paging} {h : Graph} (untouched : e.progress = .untouched request)
    (opened : runIn (Act.openPaging request e.context) (g.withProgress id .exhausted) = (.ok start, h)) :
    e.Resumes id g start h
  | further {paging : Paging} {ready : Ready} {h : Graph} (under : e.progress = .under paging ready)
    (none : runIn (Act.takeReady ready) (g.withProgress id .exhausted) = (.ok .none, h)) :
    e.Resumes id g paging h

/-- To look for the next element comes to a page, past those that contribute nothing. -/
inductive Harvest.ComesTo (harvest : Harvest) (context : Context) :
    Nat → Paging → Graph → Response → Graph → Prop
  | here {limit : Nat} {p further : Paging} {page : Response} {g h : Graph}
    (asked : runIn (Act.nextPage p) g = (.ok (some (page, further)), h)) :
    harvest.ComesTo context (limit + 1) p g page h
  | past {limit : Nat} {p further : Paging} {empty page : Response} {ready : Ready}
      {g mid last h : Graph}
    (asked : runIn (Act.nextPage p) g = (.ok (some (empty, further)), mid))
    (harvested : runIn (Act.harvestPage harvest context empty) mid = (.ok ready, last))
    (none : runIn (Act.takeReady ready) last = (.ok .none, last))
    (rest : harvest.ComesTo context limit further last page h) :
    harvest.ComesTo context (limit + 1) p g page h

/-- The next step of the enumeration comes to a page. -/
def Enumeration.ComesTo (e : Enumeration) (id : EnumerationId) (g : Graph) (page : Response)
    (h : Graph) :
    Prop :=
  ∃ start mid client, e.Resumes id g start mid ∧ mid.clients[start.client]? = some client ∧
    e.harvest.ComesTo e.context (Act.pageLimit start.method client + 2) start mid page h

/-- No identifiers are made of values that lack one. -/
theorem ResourceType.identify_of_lacks {t : ResourceType} {values : Keyed Datum}
    (lacks : t.Lacks values) :
    ∃ f, t.identify (Keyed.erase values Builder.dataKey) = .error f := by
  obtain ⟨name, declared, missing⟩ := lacks
  cases identified : t.identify (Keyed.erase values Builder.dataKey) with
  | error f => exact ⟨f, rfl⟩
  | ok identifiers =>
    obtain ⟨i, place⟩ := List.mem_iff_getElem?.mp declared
    obtain ⟨entry, _, valued⟩ := (getElem_of_mapM (Act.of_identify identified).2 i).2 name place
    obtain ⟨_, filled, found⟩ := Act.of_valueFor valued
    by_cases isData : name = Builder.dataKey
    · rw [isData, Keyed.get?_erase_self] at found
      cases found
    · rw [Keyed.get?_erase values isData] at found
      rw [found] at missing
      exact absurd missing filled

namespace Act

variable {b : Builder} {context : Context} {g h : Graph} {id : ResourceId}

/-! ## Building -/

/-- No resource is built of values that lack an identifier. -/
theorem buildOne_fails {type : ResourceType} {values : Keyed Datum} (context : Context)
    (typed : g.types[b.target.index]? = some type) (lacks : type.Lacks values) :
    ∃ f h, runIn (buildOne b context values) g = (.error f, h) := by
  obtain ⟨f, refused⟩ := ResourceType.identify_of_lacks lacks
  rcases ran : runIn (buildOne b context values) g with ⟨f | x, h⟩
  · exact ⟨f, h, rfl⟩
  · obtain ⟨caller, mid, asked, building⟩ := bind_gives.mp ran
    obtain rfl := (callerOf_looks context).same asked
    obtain ⟨made, last, constructed, _⟩ := bind_gives.mp building
    obtain ⟨r, identified, _⟩ := construct_gives constructed
    rw [typed, Option.getD_some, refused] at identified
    cases identified

/-- Where one of the rows lacks an identifier, building them all fails. -/
theorem buildRows_fails {type : ResourceType} {rows : List (Keyed Datum)} {row : Keyed Datum}
    (context : Context) (typed : g.types[b.target.index]? = some type) (member : row ∈ rows)
    (lacks : type.Lacks row) :
    ∃ f h, runIn (rows.mapM (buildOne b context)) g = (.error f, h) := by
  induction rows generalizing g with
  | nil => cases member
  | cons first rest ih =>
    rw [List.mapM_cons]
    rcases ran : runIn (buildOne b context first) g with ⟨f | x, mid⟩
    · exact ⟨f, mid, runIn_bind_error ran⟩
    · rw [runIn_bind_ok ran]
      rcases List.mem_cons.mp member with rfl | later
      · obtain ⟨f, h, failed⟩ := buildOne_fails context typed lacks
        rw [failed] at ran
        cases ran
      · have change : Change anyCall g mid := (buildOne_change b context first).related ran
        obtain ⟨f, h, failed⟩ := ih (change.types ▸ typed) later
        exact ⟨f, h, runIn_bind_error failed⟩

/-- A builder that would have to make a resource without one of its identifiers fails. -/
theorem build_fails (incomplete : b.Incomplete context g) :
    ∃ f h, runIn (build b context) g = (.error f, h) := by
  obtain ⟨type, typed, lacking⟩ := incomplete
  unfold build
  rcases ran : runIn (extractAll b context) g with ⟨f | values, mid⟩
  · exact ⟨f, mid, runIn_bind_error ran⟩
  · obtain ⟨row, member, lacks⟩ := lacking values mid ran
    have change : Change anyCall g mid := (extractAll_change (fun _ _ => trivial) b context).related ran
    rw [runIn_bind_ok ran]
    rw [← change.types] at typed
    unfold Builder.rowsOf at member
    split
    · next plural =>
      rw [if_pos plural] at member
      rw [runIn_bind, runIn_get]
      obtain ⟨f, h, failed⟩ := buildRows_fails context typed member lacks
      exact ⟨f, h, runIn_bind_error failed⟩
    · next single =>
      rw [if_neg single] at member
      obtain rfl := List.mem_singleton.mp member
      obtain ⟨f, h, failed⟩ := buildOne_fails context typed lacks
      exact ⟨f, h, runIn_bind_error failed⟩

/-! ## What comes to build -/

/-- An operation that comes to build without an identifier fails, and no reference is kept of it. -/
theorem callOperation_fails {o : Operation} {name : String} {unnamed : List Json} {named : Keyed Json}
    {mid : Graph} (builds : o.Builds id name unnamed named g b context mid)
    (incomplete : b.Incomplete context mid) :
    ∃ f h, runIn (callOperation id name o unnamed named) g = (.error f, h) ∧ g.Settled h := by
  obtain ⟨f, h, failed⟩ := build_fails incomplete
  have kept := (build_building (fun _ _ => trivial) building_settled b context).related failed
  cases builds with
  | @argument given argument mid work requires taken received =>
    have before := (settled_of_receive given).related received
    refine ⟨f, h, ?_, settled_lasting.trans before kept⟩
    unfold callOperation
    rw [work]
    dsimp only
    rw [if_pos requires, taken, runIn_bind_ok (runIn_liftResult _ _), runIn_bind_ok received,
      runIn_bind_error failed]
  | @unkept r work plain bare there fresh =>
    refine ⟨f, h, ?_, kept⟩
    have resourced : runIn (resource id) g = (.ok r, g) := resource_runs there
    unfold callOperation
    rw [work]
    dsimp only
    rw [if_neg (by simp [plain]), if_pos (by simp [bare])]
    apply runIn_bind_error
    unfold keptReference
    rw [runIn_bind_ok resourced, fresh]
    exact runIn_bind_error failed
  | @answered request params response mid work taken sent =>
    have before := (sendRequest_settled request { caller := some id, params }).related sent
    refine ⟨f, h, ?_, settled_lasting.trans before kept⟩
    unfold callOperation
    rw [work]
    dsimp only
    rw [taken, runIn_bind_ok (runIn_liftResult _ _)]
    unfold invoke
    rw [work]
    dsimp only
    rw [runIn_bind_ok sent, runIn_bind_error failed]

private theorem seek_fails {limit : Nat} {p : Paging} {page : Response} {mid : Graph}
    (comes : (Harvest.resources b).ComesTo context limit p g page mid)
    (incomplete : b.Incomplete { context with response := some page } mid) :
    ∃ f h, runIn (seek (.resources b) context limit p) g = (.error f, h) := by
  induction comes with
  | here asked =>
    obtain ⟨f, h, failed⟩ := build_fails incomplete
    refine ⟨f, h, ?_⟩
    rw [seek, runIn_bind_ok asked]
    exact runIn_bind_error (runIn_bind_error failed)
  | past asked harvested none rest ih =>
    obtain ⟨f, h, failed⟩ := ih incomplete
    refine ⟨f, h, ?_⟩
    rw [seek, runIn_bind_ok asked]
    dsimp only
    rw [runIn_bind_ok harvested, runIn_bind_ok none]
    exact failed

/-- To advance fails when looking for the next element does, and the enumeration has ended. -/
theorem advance_fails {enumeration : EnumerationId} {e : Enumeration} {paging : Act Paging}
    {start : Paging} {mid : Graph} {c : Client} {f : Failure}
    (there : (g.enumerations[enumeration]?).map sought = some (sought e))
    (keeps : Keeps (Change anyCall) paging)
    (opened : runIn paging (g.withProgress enumeration .exhausted) = (.ok start, mid))
    (served : mid.clients[start.client]? = some c)
    (failed : runIn (seek e.harvest e.context (pageLimit start.method c + 2) start) mid =
      (.error f, h)) :
    runIn (advance enumeration e paging) g = (.error f, h) ∧
      h.enumerations[enumeration]? = some (sought e) := by
  have found : runIn (client start.client) mid = (.ok c, mid) := client_runs served
  refine ⟨?_, ?_⟩
  · unfold advance
    rw [runIn_bind_ok (runIn_setProgress _ _ _), runIn_bind_ok opened, runIn_bind_ok found,
      runIn_bind_error failed]
  · rw [((seek_change _ _ _ _).related failed).enumerations, (keeps.related opened).enumerations]
    change (g.enumerations.modify enumeration sought)[enumeration]? = _
    rw [Array.getElem?_modify, if_pos rfl]
    exact there

/-- A step of an enumeration that comes to a page of which it would have to build without an
identifier fails, and the enumeration has ended. -/
theorem next_fails {enumeration : EnumerationId} {e : Enumeration} {page : Response} {mid : Graph}
    (there : g.enumerations[enumeration]? = some e) (builds : e.harvest = .resources b)
    (comes : e.ComesTo enumeration g page mid)
    (incomplete : b.Incomplete { e.context with response := some page } mid) :
    ∃ f h, runIn (next enumeration) g = (.error f, h) ∧
      h.enumerations[enumeration]? = some (sought e) := by
  obtain ⟨start, opened, c, resumes, served, comes⟩ := comes
  rw [builds] at comes
  obtain ⟨f, h, failed⟩ := seek_fails comes incomplete
  rw [← builds] at failed
  cases resumes with
  | @first request _ _ untouched opening =>
    have now : (g.enumerations[enumeration]?).map sought = some (sought e) := by rw [there]; rfl
    obtain ⟨advanced, ended⟩ := advance_fails now
      (openPaging_change anyCall (fun _ _ => trivial) request e.context) opening served failed
    refine ⟨f, h, ?_, ended⟩
    rw [runIn_next_untouched there untouched, advanced]
  | @further _ ready _ under none =>
    obtain rfl := (takeReady_looks ready).same none
    have now : ((g.withProgress enumeration .exhausted).enumerations[enumeration]?).map sought =
        some (sought e) := by
      rw [there_withProgress there]
      rfl
    obtain ⟨advanced, ended⟩ := advance_fails (e := e) now (.pure change_lasting start)
      (by rw [withProgress_withProgress]; rfl) served failed
    refine ⟨f, h, ?_, ended⟩
    unfold next
    rw [runIn_bind, runIn_get]
    dsimp only
    rw [there]
    dsimp only
    rw [under]
    dsimp only
    rw [runIn_bind_ok (runIn_setProgress _ _ _), runIn_bind_ok none]
    exact advanced

end Act

end ResourceGraph
