import ResourceGraph.Proofs.Paging
import ResourceGraph.Graph.Open

/-!
Using the resources of a safe graph by name. Whatever name is called, with whatever arguments, what
it stands for is an operation of the type of the resource, which is safe for it; so the use blames
no rules that are not excused, and leaves a safe graph, in which an enumeration that it began is
safe as well.
-/

namespace ResourceGraph

open ResourceGraph.Graph Store

/-- The type of the resource has the operation under the name. -/
def Graph.Names (g : Graph) (id : ResourceId) (name : String) (o : Operation) : Prop :=
  ∃ r type, g.resources[id]? = some r ∧ g.types[r.type.index]? = some type ∧
    Keyed.get? type.operations name = some o

namespace Act

variable {α β : Type} {E : Failure → Prop} {P : Graph → Prop} {g h : Graph}
  {caller : Option ResourceId} {declared : List String}

/-- In safe graphs that have a property, the action leaves a safe graph and fails only in ways that
are excused. -/
def Upholds (E : Failure → Prop) (P : Graph → Prop) (x : Act α) : Prop :=
  ∀ g, g.Safe E → P g → (runIn x g).2.Safe E ∧ ∀ f h, runIn x g = (.error f, h) → E f

namespace Upholds

variable {x : Act α} {f : α → Act β}

theorem of (keeps : Keeps (Change anyCall) x) (fails : Fails (fun g => g.Safe E ∧ P g) E x) :
    Upholds E P x :=
  fun g safe holds => ⟨safe.of_change (keeps g), fun f h ran => fails g f h ⟨safe, holds⟩ ran⟩

theorem harmless (excuses : Excuses E) (keeps : Keeps (Change anyCall) x) (harmless : Harmless x) :
    Upholds E P x := of keeps (harmless.fails excuses)

theorem pure (a : α) : Upholds E P (Pure.pure a : Act α) :=
  fun _ safe _ => ⟨safe, fun _ _ ran => by cases ran⟩

theorem fail (excuses : Excuses E) {failure : Failure} (fine : ¬ failure.BlamesUse) :
    Upholds E P (Act.fail failure : Act α) :=
  harmless excuses (.throw change_lasting _) (harmless_fail fine)

/-- The second action may rely on what the first one gave. -/
theorem bindAfter (first : Upholds E P x)
    (rest : ∀ g a mid, g.Safe E → P g → runIn x g = (.ok a, mid) → mid.Safe E →
      (runIn (f a) mid).2.Safe E ∧ ∀ failure h, runIn (f a) mid = (.error failure, h) → E failure) :
    Upholds E P (x >>= f) := by
  intro g safe holds
  obtain ⟨after, excused⟩ := first g safe holds
  rw [runIn_bind]
  rcases ran : runIn x g with ⟨failure | a, mid⟩
  · rw [ran] at after
    refine ⟨after, fun other h failed => ?_⟩
    cases failed
    exact excused _ _ ran
  · rw [ran] at after
    exact rest g a mid safe holds ran after

theorem bind (keeps : Keeps (Change anyCall) x) (first : Upholds E P x)
    (stable : ∀ g h, Change anyCall g h → P g → P h) (rest : ∀ a, Upholds E P (f a)) :
    Upholds E P (x >>= f) := by
  refine bindAfter first fun g a mid _ holds ran after => ?_
  have change := keeps g
  rw [ran] at change
  exact rest a mid after (stable g mid change holds)

/-- What an action gives is turned into something else. -/
theorem map (first : Upholds E P x) (k : α → β) : Upholds E P (x >>= fun a => Pure.pure (k a)) :=
  bindAfter first fun _ a mid _ _ _ after => (pure (P := fun _ => True) (k a)) mid after trivial

end Upholds

/-! ## Invoking -/

theorem knows_stable (g h : Graph) (change : Change anyCall g h) (knows : g.Knows caller declared) :
    h.Knows caller declared := knows.of_change change

private theorem enumerate_upholds {harvest : Harvest} {context : Context} {progress : Progress}
    (fine : ∀ g, P g → Enumeration.Safe E g ⟨harvest, context, progress⟩) :
    Upholds E P (enumerate harvest context progress) := by
  intro g safe holds
  refine ⟨⟨safe.types, safe.resources, safe.clients, safe.expressions, ?_⟩, fun f h ran => by cases ran⟩
  intro id e there
  change (g.enumerations.push ⟨harvest, context, progress⟩)[id]? = some e at there
  rw [Array.getElem?_push] at there
  split at there
  · cases there
    exact (fine g holds).of_resources rfl
  · exact (safe.enumerations id e there).of_resources rfl

private theorem sendRequest_change (request : Request) (context : Context) :
    Keeps (Change anyCall) (sendRequest data request context) :=
  sendRequest_keeps (fun _ _ => trivial) calling_change data_keeps _ _

private theorem sendRequest_upholds (excuses : Excuses E) {context : Context} {request : Request}
    (fine : request.Safe E declared) :
    Upholds E (Knows · context.caller declared) (sendRequest data request context) := by
  exact .of (sendRequest_change _ _)
    (sendRequest_blameless excuses data_keeps (data_declared excuses) fine)

private theorem dataLoad_change (request : Request) (path : String) (context : Context) :
    Keeps (Change anyCall) (runLoad data request path context) :=
  runLoad_change (fun _ _ => trivial) data_keeps _ _ _

private theorem dataLoad_upholds (excuses : Excuses E) (context : Context) {request : Request}
    {path : String} (fine : request.Safe E declared)
    (readable : path = Path.whole ∨ Path.Readable path) :
    Upholds E (Knows · context.caller declared) (runLoad data request path context) :=
  .of (dataLoad_change _ _ _)
    (runLoad_blameless excuses data_keeps context (data_declared excuses) fine readable)

/-- To begin an enumeration whose request reads what the caller has. -/
theorem untouched_upholds {context : Context} {request : Request} {harvest : Harvest}
    (fine : request.Safe E declared) (safe : ∀ g, Knows g context.caller declared →
      harvest.Safe g context.caller) :
    Upholds E (Knows · context.caller declared) (enumerate harvest context (.untouched request)) := by
  refine enumerate_upholds fun g knows => ⟨fun other untouched => ?_, safe g knows, nofun⟩
  cases untouched
  exact ⟨declared, knows, fine⟩

theorem build_upholds (excuses : Excuses E) (context : Context) {b : Builder} (fine : b.Safe declared)
    (response : b.readsResponse = true → context.response.isSome) :
    Upholds E (Knows · context.caller declared) (build b context) :=
  .of (build_change (fun _ _ => trivial) _ _) (build_blameless excuses context fine response)

/-- Invoking a safe operation of the caller. -/
theorem invoke_upholds (excuses : Excuses E) {o : Operation} (context : Context)
    (fine : o.Safe E declared) :
    Upholds E (Knows · context.caller declared) (invoke o context) := by
  unfold invoke
  cases work : o.work with
  | basic request =>
    refine .map (sendRequest_upholds excuses (fine.request request ?_)) _
    simp [Operation.request?, work]
  | data request path =>
    refine .bind (sendRequest_change _ _) (sendRequest_upholds excuses (fine.request request ?_))
      knows_stable fun response => ?_
    · simp [Operation.request?, work]
    · refine .map (.harmless excuses (search_keeps storing_change _ _) (harmless_search ?_ _)) _
      exact fine.path path (by simp [Operation.path?, work])
  | enumerateData request path =>
    refine .map (untouched_upholds (fine.request request ?_) fun g knows => ?_) _
    · simp [Operation.request?, work]
    · exact fine.path path (by simp [Operation.path?, work])
  | resource request builder =>
    refine .bind (sendRequest_change _ _) (sendRequest_upholds excuses (fine.request request ?_))
      knows_stable fun response => ?_
    · simp [Operation.request?, work]
    · refine .map (build_upholds excuses { context with response := some response }
        (fine.builder builder ?_) fun _ => rfl) _
      simp [Operation.builder?, work]
  | enumerateResource request builder =>
    refine .map (untouched_upholds (fine.request request ?_) fun g knows => ?_) _
    · simp [Operation.request?, work]
    · exact ⟨declared, knows, fine.builder builder (by simp [Operation.builder?, work])⟩
  | reference builder =>
    have given : o.builder? = some builder := by simp [Operation.builder?, work]
    refine .map (build_upholds excuses context (fine.builder builder given) fun reads => ?_) _
    rw [fine.reference (by simp [Operation.kind, work]) builder given] at reads
    cases reads
  | load request path =>
    refine .bind (dataLoad_change _ _ _)
      (dataLoad_upholds excuses context (fine.request request ?_) (fine.path path ?_)) knows_stable
      fun _ => ?_
    · simp [Operation.request?, work]
    · simp [Operation.path?, work]
    · split
      · exact .pure _
      · exact .fail excuses not_false

/-! ## Calling by name -/

theorem receive_upholds (excuses : Excuses E) (given : Json) : Upholds E P (receive given) :=
  .harmless excuses (receive_keeps storing_change.taking _) (harmless_receive _)

theorem lift_upholds (excuses : Excuses E) {result : Except Failure α}
    (fine : ∀ f, result = .error f → ¬ f.BlamesUse) : Upholds E P (lift result) :=
  .harmless excuses ((lift_looks _).keeps change_lasting) (harmless_lift fine)

theorem resource_upholds (excuses : Excuses E) (id : ResourceId) : Upholds E P (resource id) :=
  .harmless excuses ((resource_looks id).keeps change_lasting) (harmless_resource id)

private theorem typeOf_upholds (excuses : Excuses E) (ref : TypeRef) : Upholds E P (typeOf ref) :=
  .harmless excuses ((typeOf_looks ref).keeps change_lasting) (harmless_typeOf ref)

private theorem mergeParams_harmless {given : Json} {named : Keyed Json} {f : Failure}
    (failed : mergeParams given named = .error f) : ¬ f.BlamesUse := by
  unfold mergeParams at failed
  split at failed
  · cases failed
  · split at failed
    · cases failed
      exact not_false
    · split at failed <;> cases failed

theorem callParams_harmless {unnamed : List Json} {named : Keyed Json} {f : Failure}
    (failed : callParams unnamed named = .error f) : ¬ f.BlamesUse := by
  unfold callParams at failed
  split at failed
  · exact mergeParams_harmless failed
  · exact mergeParams_harmless failed
  · cases failed
    exact not_false

private theorem callArgument_harmless {unnamed : List Json} {named : Keyed Json} {f : Failure}
    (failed : callArgument unnamed named = .error f) : ¬ f.BlamesUse := by
  unfold callArgument at failed
  split at failed
  · cases failed
  · cases failed
  · cases failed
    exact not_false

private theorem keptReference_upholds (excuses : Excuses E) {id : ResourceId} {name : String}
    {b : Builder} (fine : b.Safe declared) (references : b.readsResponse = false) :
    Upholds E (Knows · (some id) declared) (keptReference id name b) := by
  refine .bind ((resource_looks id).keeps change_lasting) (resource_upholds excuses id) knows_stable
    fun r => ?_
  split
  · exact .pure _
  · have built := build_upholds excuses { caller := some id } fine
      (fun reads => by rw [references] at reads; cases reads)
    refine .bind (build_change (fun _ _ => trivial) _ _) built knows_stable fun built => ?_
    refine .map (.harmless excuses (changeResource_change ?_ id) ?_) _
    · exact fun _ => ⟨rfl, rfl, rfl⟩
    · intro g f h _ ran
      cases ran

/-- Calling a safe operation of a resource, under any name. -/
theorem callOperation_upholds (excuses : Excuses E) {id : ResourceId} (name : String) {o : Operation}
    (unnamed : List Json) (named : Keyed Json) (fine : o.Safe E declared) :
    Upholds E (Knows · (some id) declared) (callOperation id name o unnamed named) := by
  have invoked : Upholds E (Knows · (some id) declared) (do
      invoke o { caller := some id, params := ← lift (callParams unnamed named) }) := by
    refine .bind ((lift_looks _).keeps change_lasting)
      (lift_upholds excuses fun f => callParams_harmless) knows_stable fun params => ?_
    exact invoke_upholds excuses { caller := some id, params } fine
  unfold callOperation
  split
  · next builder work =>
    have given : o.builder? = some builder := by simp [Operation.builder?, work]
    have references := fine.reference (by simp [Operation.kind, work]) builder given
    split
    · refine .bind ((lift_looks _).keeps change_lasting)
        (lift_upholds excuses fun f => callArgument_harmless) knows_stable fun value => ?_
      refine .bind (receive_keeps storing_change.taking _) (receive_upholds excuses _) knows_stable
        fun argument => ?_
      refine .map (build_upholds excuses { caller := some id, argument }
        (fine.builder builder given) fun reads => ?_) _
      rw [references] at reads
      cases reads
    · split
      · exact .map (keptReference_upholds excuses (fine.builder builder given) references) _
      · exact .fail excuses not_false
  · exact invoked

private theorem load_upholds (excuses : Excuses E) (id : ResourceId) (params : Json) :
    Upholds E P (load id params) :=
  .of (load_change (fun _ _ => trivial) id params)
    ((load_blameless excuses id params).weaken fun _ safe => safe.1)

private theorem callLoad_upholds (excuses : Excuses E) (id : ResourceId) (unnamed : List Json)
    (named : Keyed Json) : Upholds E (fun _ => True) (callLoad id unnamed named) := by
  have stable : ∀ g h, Change anyCall g h → True → True := fun _ _ _ _ => trivial
  unfold callLoad
  split
  · exact .fail excuses not_false
  · refine .bind ((resource_looks id).keeps change_lasting) (resource_upholds excuses id) stable
      fun r => ?_
    refine .bind ((typeOf_looks _).keeps change_lasting) (typeOf_upholds excuses _) stable fun type => ?_
    split
    · exact .fail excuses not_false
    · refine .bind ((lift_looks _).keeps change_lasting)
        (lift_upholds excuses fun f => callParams_harmless) stable fun params => ?_
      exact .map (load_upholds excuses id params) _

/-- The operation was attached under the name to the type of the resource. -/
def Attached (g : Graph) (id : ResourceId) (o : Operation) : Prop :=
  ∃ r type name, g.resources[id]? = some r ∧ g.types[r.type.index]? = some type ∧
    (name, o) ∈ type.operations

private theorem attached_of_names {id : ResourceId} {name : String} {o : Operation}
    (names : g.Names id name o) :
    Attached g id o := by
  obtain ⟨r, type, there, typed, found⟩ := names
  exact ⟨r, type, name, there, typed, Keyed.mem_of_get? found⟩

theorem Attached.safe {id : ResourceId} {o : Operation} (attached : Attached g id o)
    (safe : g.Safe E) : ∃ declared, g.Knows (some id) declared ∧ o.Safe E declared := by
  obtain ⟨r, type, name, there, typed, member⟩ := attached
  exact ⟨type.identifiers, ⟨id, r, rfl, there, safe.resources id r there type typed⟩,
    (safe.types _ type typed).operations _ member⟩

private theorem operation_harmless {t : ResourceType} {name : String} {f : Failure}
    (failed : t.operation name = .error f) : ¬ f.BlamesUse := by
  unfold ResourceType.operation at failed
  split at failed
  · cases failed
  · cases failed
    exact not_false

private theorem operationOf_harmless {t : ResourceType} {given : Json} {f : Failure}
    (failed : operationOf t given = .error f) : ¬ f.BlamesUse := by
  unfold operationOf at failed
  split at failed
  · exact operation_harmless failed
  · split at failed
    · cases failed
      exact not_false
    · rcases written_cases given given.text with shown | long
      · rw [shown] at failed
        cases failed
        exact not_false
      · rw [long] at failed
        cases failed
        exact not_false

/-- What is invoked by something that is no text is no operation. -/
theorem name_of_operationOf {t : ResourceType} {given : Json} {o : Operation}
    (found : operationOf t given = .ok o) : ∃ name, given = .str name ∧ t.operation name = .ok o := by
  unfold operationOf at found
  split at found
  · next name => exact ⟨name, rfl, found⟩
  · split at found
    · cases found
    · obtain ⟨_, _, found⟩ := Outcome.bind_ok.mp found
      cases found

private theorem get?_of_operation {t : ResourceType} {name : String} {o : Operation}
    (found : t.operation name = .ok o) : Keyed.get? t.operations name = some o := by
  unfold ResourceType.operation at found
  split at found
  · next there =>
    cases found
    exact there
  · cases found

theorem names_of_operation {id : ResourceId} {r : Resource} {name : String} {o : Operation}
    (there : g.resources[id]? = some r)
    (found : ((g.types[r.type.index]?).getD { name := r.type.name }).operation name = .ok o) :
    g.Names id name o := by
  cases typed : g.types[r.type.index]? with
  | none =>
    rw [typed] at found
    cases found
  | some type =>
    rw [typed] at found
    exact ⟨r, type, there, typed, get?_of_operation found⟩

theorem attached_of_operation {id : ResourceId} {r : Resource} {name : String} {o : Operation}
    (there : g.resources[id]? = some r)
    (found : ((g.types[r.type.index]?).getD { name := r.type.name }).operation name = .ok o) :
    Attached g id o := attached_of_names (names_of_operation there found)

private theorem invokeNamed_upholds (excuses : Excuses E) (id : ResourceId) (name : Json)
    (unnamed : List Json) (named : Keyed Json) :
    Upholds E (fun _ => True) (invokeNamed id name unnamed named) := by
  unfold invokeNamed
  split
  · exact .fail excuses not_false
  · refine .bindAfter (resource_upholds excuses id) fun g r mid _ _ gave after => ?_
    obtain ⟨there, rfl⟩ := resource_gives gave
    rw [runIn_bind, runIn_typeOf]
    dsimp only
    refine Upholds.bindAfter (P := fun g => g = mid) ?_ ?_ mid after rfl
    · exact lift_upholds excuses fun f => operationOf_harmless
    · intro g o last _ same found safe
      rw [runIn_liftResult, Prod.mk.injEq] at found
      obtain ⟨found, rfl⟩ := found
      subst same
      obtain ⟨_, rfl, found⟩ := name_of_operationOf found
      obtain ⟨declared, knows, fine⟩ := (attached_of_operation there found).safe safe
      exact callOperation_upholds excuses _ unnamed named fine _ safe knows

/-- A client that a caller gives is one more. -/
theorem connect_change (g : Graph) (v : Datum) :
    Change anyCall g { g with clients := g.clients.push (.standIn v) } := by
  refine ⟨learns_lasting.refl _, rfl, rfl, fun _ r there => ⟨r, there, Resource.remains_lasting.refl r⟩,
    ?_, ?_, ?_, [], by simp, by simp⟩
  · intro id r there outside
    obtain ⟨inside, _⟩ := Array.getElem?_eq_some_iff.mp there
    exact absurd inside (Nat.not_lt.mpr outside)
  · intro id c there
    obtain ⟨inside, _⟩ := Array.getElem?_eq_some_iff.mp there
    refine ⟨c, ?_, Client.goesOn_lasting.refl c⟩
    dsimp only
    rw [Array.getElem?_push, if_neg (Nat.ne_of_lt inside)]
    exact there
  · intro id c there outside
    dsimp only at there
    rw [Array.getElem?_push] at there
    split at there
    · cases there
      exact ⟨v, rfl⟩
    · obtain ⟨inside, _⟩ := Array.getElem?_eq_some_iff.mp there
      exact absurd inside (Nat.not_lt.mpr outside)

private theorem harmless_receiveClient (given : Json) : Harmless (receiveClient given) := by
  unfold receiveClient
  split
  · exact .pure _
  · refine .seq (harmless_receive _) fun value g f h _ ran => ?_
    cases ran

private theorem harmless_receiveData (given : Json) : Harmless (receiveData given) := by
  unfold receiveData
  split
  · exact .pure _
  · exact .seq (harmless_receive _) fun _ => .pure _

section Types

variable {R : Graph → Graph → Prop} (building : Building anyCall R)
  (connects : ∀ (g : Graph) v, R g { g with clients := g.clients.push (.standIn v) })

include building

private theorem receiveData_building (given : Json) : Keeps R (receiveData given) := by
  have lasting := building.lasting
  unfold receiveData
  split
  · exact .pure lasting _
  · exact .bind lasting (receive_keeps building.toStoring.taking _) fun _ => .pure lasting _

include connects

private theorem receiveClient_building (given : Json) : Keeps R (receiveClient given) := by
  have lasting := building.lasting
  unfold receiveClient
  split
  · exact .pure lasting _
  · exact .bind lasting (receive_keeps building.toStoring.taking _) fun value g => connects g value

/-- To call a type is to make a resource, perhaps for a client that is new. -/
theorem callType_building (ref : TypeRef) (unnamed : List Json) (named : Keyed Json) :
    Keeps R (callType ref unnamed named) := by
  have lasting := building.lasting
  have received : ∀ given, Keeps R (receive given) := receive_keeps building.toStoring.taking
  refine .bind lasting (.mapM lasting fun given _ => received given) fun values => ?_
  refine .bind lasting (.mapM lasting fun entry _ => ?_) fun members => ?_
  · exact .bind lasting (received _) fun _ => .pure lasting _
  refine .bind lasting ((typeOf_looks ref).keeps lasting) fun type => ?_
  refine .bind lasting ((lift_looks _).keeps lasting) fun placed => ?_
  refine .bind lasting (receiveData_building building _) fun data => ?_
  exact .bind lasting (receiveClient_building building connects _) fun client =>
    makeResource_makes building.making _ _ _ _

end Types

private theorem callType_change (ref : TypeRef) (unnamed : List Json) (named : Keyed Json) :
    Keeps (Change anyCall) (callType ref unnamed named) :=
  callType_building building_change connect_change ref unnamed named

private theorem harmless_callType (ref : TypeRef) (unnamed : List Json) (named : Keyed Json) :
    Harmless (callType ref unnamed named) := by
  refine .seq (.mapM (fun _ _ _ _ => trivial) fun given _ => harmless_receive given) fun values => ?_
  refine .seq (.mapM (fun _ _ _ _ => trivial) fun entry _ => ?_) fun members => ?_
  · exact Harmless.seq (harmless_receive _) fun _ => .pure _
  refine .seq (harmless_typeOf ref) fun type => ?_
  refine .seq (harmless_lift fun f => placed_harmless) fun placed => ?_
  refine .seq (harmless_receiveData _) fun data => ?_
  exact .seq (harmless_receiveClient _) fun client => harmless_makeResource _ _ _ _

theorem data_upholds (excuses : Excuses E) (id : ResourceId) : Upholds E P (data id) :=
  .of (data_keeps id) ((data_blameless excuses id).weaken fun _ safe => safe.1)

private theorem client_upholds (excuses : Excuses E) (id : ClientId) : Upholds E P (client id) :=
  .harmless excuses ((client_looks id).keeps change_lasting) (harmless_client id)

private theorem readAttribute_upholds (excuses : Excuses E) (id : ResourceId) (name : String) :
    Upholds E (fun _ => True) (readAttribute id name) := by
  have stable : ∀ g h, Change anyCall g h → True → True := fun _ _ _ _ => trivial
  refine .bind ((resource_looks id).keeps change_lasting) (resource_upholds excuses id)
    stable fun r => ?_
  split
  case h_1 | h_2 =>
    refine .bind ((client_looks _).keeps change_lasting) (client_upholds excuses _) stable fun c => ?_
    split <;> exact .pure _
  case h_3 => exact .map (data_upholds excuses id) _
  all_goals try exact .pure _
  split
  · exact .fail excuses not_false
  · split
    · exact .pure _
    · refine .bind ((typeOf_looks _).keeps change_lasting) (typeOf_upholds excuses _) stable
        fun type => ?_
      exact .map (lift_upholds excuses fun f => operation_harmless) _

/-- To read what a name stands for may load data, and changes nothing else. -/
theorem readAttribute_building {R : Graph → Graph → Prop} {kind : Exchange → Prop}
    (single : ∀ x : Exchange, x.Single → kind x) (building : Building kind R) (id : ResourceId)
    (name : String) : Keeps R (readAttribute id name) := by
  have lasting := building.lasting
  refine .bind lasting ((resource_looks id).keeps lasting) fun r => ?_
  split
  case h_1 | h_2 =>
    refine .bind lasting ((client_looks _).keeps lasting) fun c => ?_
    split <;> exact .pure lasting _
  case h_3 => exact .bind lasting (data_building single building id) fun _ => .pure lasting _
  all_goals try exact .pure lasting _
  split
  · exact .throw lasting _
  · split
    · exact .pure lasting _
    · refine .bind lasting ((typeOf_looks _).keeps lasting) fun type => ?_
      exact .bind lasting ((lift_looks _).keeps lasting) fun o => .pure lasting _

/-- A name that stands for an operation stands for the one that the type of the resource has under
it. -/
theorem names_of_readAttribute {id : ResourceId} {name : String} {o : Operation}
    (ran : runIn (readAttribute id name) g = (.ok (.operation o), h)) : h = g ∧ g.Names id name o := by
  obtain ⟨r, mid, gave, reading⟩ := bind_gives.mp ran
  obtain ⟨there, rfl⟩ := resource_gives gave
  split at reading
  case h_3 =>
    obtain ⟨_, _, _, reading⟩ := bind_gives.mp reading
    cases reading
  case h_15 =>
    split at reading
    · cases reading
    · split at reading
      · cases reading
      · rw [runIn_bind, runIn_typeOf] at reading
        dsimp only at reading
        obtain ⟨found, last, looked, reading⟩ := bind_gives.mp reading
        rw [runIn_liftResult, Prod.mk.injEq] at looked
        obtain ⟨looked, rfl⟩ := looked
        cases reading
        exact ⟨rfl, names_of_operation there looked⟩
  all_goals try cases reading
  all_goals
    obtain ⟨c, _, _, reading⟩ := bind_gives.mp reading
    cases c <;> cases reading

theorem attached_of_readAttribute {id : ResourceId} {name : String} {o : Operation}
    (ran : runIn (readAttribute id name) g = (.ok (.operation o), h)) : h = g ∧ Attached g id o :=
  ⟨(names_of_readAttribute ran).1, attached_of_names (names_of_readAttribute ran).2⟩

/-- Calling whatever a name of a resource stands for. -/
theorem callNamed_upholds (excuses : Excuses E) (id : ResourceId) (name : String) (unnamed : List Json)
    (named : Keyed Json) : Upholds E (fun _ => True) (callNamed id name unnamed named) := by
  have stable : ∀ g h, Change anyCall g h → True → True := fun _ _ _ _ => trivial
  refine .bindAfter (readAttribute_upholds excuses id name) fun g meaning mid _ _ gave safe => ?_
  cases meaning with
  | operation o =>
    obtain ⟨rfl, attached⟩ := attached_of_readAttribute gave
    obtain ⟨declared, knows, fine⟩ := attached.safe safe
    exact callOperation_upholds excuses name unnamed named fine _ safe knows
  | load => exact callLoad_upholds excuses id unnamed named mid safe trivial
  | invoke =>
    refine Upholds.bind (P := fun _ => True) ((lift_looks _).keeps change_lasting)
      (lift_upholds excuses fun f failed => ?_) stable (fun given => ?_) mid safe trivial
    · unfold invokedName at failed
      split at failed
      · cases failed
      · cases failed
      · cases failed
        exact not_false
    · exact invokeNamed_upholds excuses id _ _ _
  | type ref =>
    refine Upholds.map (P := fun _ => True) (.harmless excuses ?_ ?_) _ mid safe trivial
    · exact callType_change ref unnamed named
    · exact harmless_callType ref unnamed named
  | value _ | client _ | references _ =>
    have misused : Upholds E (fun _ => True) (misuse .notCallable : Act Outcome) :=
      .fail excuses not_false
    exact misused mid safe trivial

end Act

end ResourceGraph
