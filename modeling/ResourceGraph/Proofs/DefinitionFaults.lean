import ResourceGraph.Proofs.Using
import ResourceGraph.Proofs.WellFormed

/-!
When the resources of a compiled model fail because of its rules. Compiling reads every path but
those of the projections that read data, which are read when they are used. So whatever is done with
a model, by whatever clients it is served, a definition fault comes from such a projection and an
identifier is never looked up in vain; and a projection whose path cannot be read gives its fault as
soon as its turn comes.
-/

namespace ResourceGraph

open ResourceGraph.Graph Store

/-- Something that can be done with the resources of a model. -/
inductive Move
  /-- A resource is made of a type, the root included. -/
  | make (type : TypeRef) (unnamed : List Datum) (named : Keyed Datum) (client : Option ClientId)
    (data : Option Datum)
  /-- A name of a resource is called: an operation, its load, or the invocation of one by name. -/
  | call (id : ResourceId) (name : String) (unnamed : List Json) (named : Keyed Json)
  /-- The data of a resource is read, and loaded first if it is not there. -/
  | read (id : ResourceId)
  | assign (id : ResourceId) (given : Json)
  /-- The next element of an enumeration is asked for. -/
  | next (id : EnumerationId)

/-- What a move does. -/
def Move.act : Move → Act Unit
  | make type unnamed named client data => do
    let _ ← Act.construct type unnamed named client data
    return ()
  | call id name unnamed named => do
    let _ ← Act.callNamed id name unnamed named
    return ()
  | read id => do
    let _ ← Act.data id
    return ()
  | assign id given => do Act.setData id (← Act.receive given)
  | next id => do
    let _ ← Act.next id
    return ()

/-- The graphs that moves lead to from a model and proper clients. The clients may become any other
proper ones at any time, so that they may reply whatever they like. -/
inductive Model.Reached (m : Model) : Graph → Prop
  | opened {clients : List Client} (proper : ∀ c ∈ clients, c.Proper) :
    m.Reached (Graph.ofModel m clients)
  | served {g : Graph} {clients : Array Client} (before : m.Reached g)
    (proper : ∀ (id : ClientId) c, clients[id]? = some c → c.Proper) : m.Reached { g with clients }
  | moved {g : Graph} (before : m.Reached g) (move : Move) : m.Reached (runIn move.act g).2

/-- The projection is one of a request of the model. -/
def Model.Projects (m : Model) (p : Projection) : Prop :=
  ∃ type o r, (type = m.root ∨ ∃ name, (name, type) ∈ m.types) ∧
    (type.load = some o ∨ ∃ name, (name, o) ∈ type.operations) ∧ o.request? = some r ∧ p ∈ r.params

/-- The failure does not blame the rules, or is the fault of a projection whose path cannot be read. -/
def Model.Faults (m : Model) (f : Failure) : Prop :=
  f.BlamesRules → (∃ fault, f = .definition fault) ∧ ∃ p, m.Projects p ∧ p.Unreadable f

namespace Model

variable {m : Model} {g h : Graph}

private theorem faults_excuses : Excuses m.Faults := fun _ harmless blames => absurd blames harmless

/-- What is attached to the types of a sound model is safe. -/
theorem safe_of_sound {scope : Scope} {type : ResourceType} (sound : type.Sound scope)
    (own : type = m.root ∨ ∃ name, (name, type) ∈ m.types) : type.Safe m.Faults := by
  have safe : ∀ o : Operation, o.Sound scope type.identifiers →
      (type.load = some o ∨ ∃ name, (name, o) ∈ type.operations) → o.Safe m.Faults type.identifiers := by
    intro o made attached
    refine ⟨fun r given => ⟨made.request r given, ?_⟩, fun b given => ?_, made.reference, made.path⟩
    · intro p member f unreadable blames
      exact ⟨Act.definition_of_unreadable unreadable blames, p,
        ⟨type, o, r, own, attached, given, member⟩, unreadable⟩
    · exact ⟨(made.builder b given).reads, (made.builder b given).paths⟩
  refine ⟨fun entry member => ?_, fun o set => ?_⟩
  · exact safe entry.2 (sound.operations entry member) (.inr ⟨entry.1, member⟩)
  · exact safe o (sound.load o set).1 (.inl set)

private theorem safe_opened {scope : Scope} (sound : m.Sound scope) {clients : List Client}
    (proper : ∀ c ∈ clients, c.Proper) : (Graph.ofModel m clients).Safe m.Faults := by
  refine ⟨fun i type found => ?_, nofun, fun id c there => ?_, nofun, nofun⟩
  · have member : type ∈ m.types.map Prod.snd ++ [m.root] := by
      refine List.mem_of_getElem? (i := i) ?_
      simpa [Graph.ofModel] using found
    rcases List.mem_append.mp member with listed | last
    · obtain ⟨entry, inside, rfl⟩ := List.mem_map.mp listed
      exact safe_of_sound (sound.types entry inside) (.inr ⟨entry.1, inside⟩)
    · obtain rfl := List.mem_singleton.mp last
      exact safe_of_sound sound.root (.inl rfl)
  · refine proper c (List.mem_of_getElem? (i := id) ?_)
    simpa [Graph.ofModel] using there

end Model

namespace Act

variable {E : Failure → Prop} {g : Graph}

/-- A move leaves a safe graph and blames no rules that are not excused. -/
theorem move_upholds (excuses : Excuses E) (move : Move) : Upholds E (fun _ => True) move.act := by
  cases move with
  | make type unnamed named client data =>
    exact .map (.harmless excuses (construct_change _ _ _ _ _) (harmless_construct _ _ _ _ _)) _
  | call id name unnamed named => exact .map (callNamed_upholds excuses id name unnamed named) _
  | read id => exact .map (data_upholds excuses id) _
  | assign id given =>
    refine .bind (receive_keeps storing_change.taking _) (receive_upholds excuses given)
      (fun _ _ _ _ => trivial) fun data => ?_
    refine .harmless excuses (setData_change _ _) fun g f h _ ran => ?_
    cases ran
  | next id =>
    refine .map (fun g safe _ => ⟨next_safe id safe, fun f h ran => ?_⟩) _
    exact next_blameless excuses id g f h safe ran

end Act

namespace Model

variable {m : Model} {g h : Graph}

private theorem safe_of_reached {scope : Scope} (sound : m.Sound scope) (reached : m.Reached g) :
    g.Safe m.Faults := by
  induction reached with
  | opened proper => exact safe_opened sound proper
  | served before proper ih =>
    exact ⟨ih.types, ih.resources, proper, ih.expressions, fun id e there =>
      (ih.enumerations id e there).of_resources rfl⟩
  | moved before move ih => exact (Act.move_upholds faults_excuses move _ ih trivial).1

end Model

/-! ## The fault of a path that cannot be read -/

/-- The parameters of the request are built up to the projection, in a graph that this leads to from
another and where the data of the caller is at hand. -/
def Request.ComesTo (r : Request) (id : ResourceId) (params : Json) (p : Projection) (g h : Graph) :
    Prop :=
  ∃ earlier later start built mid v, r.params = earlier ++ p :: later ∧
    Act.copyParams params = .ok start ∧
    runIn (earlier.foldlM (Act.apply Act.data (some id)) start.1) g = (.ok built, mid) ∧
    runIn (Act.data id) mid = (.ok v, h)

namespace Act

variable {g h : Graph} {id : ResourceId} {params : Json} {p : Projection} {r : Request} {f : Failure}

/-- To come to a projection leaves the expressions well read. -/
theorem wellRead_of_comesTo (comes : r.ComesTo id params p g h) (well : g.store.WellRead) :
    h.store.WellRead := by
  obtain ⟨earlier, later, start, built, mid, v, _, _, before, read⟩ := comes
  have reads : ∀ id, Keeps (Change anyCall) (data id) := data_change fun _ _ => trivial
  have first := Keeps.foldlM change_lasting earlier
    (fun params p _ => apply_keeps storing_change reads (some id) params p) start.1 g
  have second := reads id mid
  rw [before] at first
  rw [read] at second
  exact (well.learns first.store).learns second.store

private theorem buildParams_unreadable (comes : r.ComesTo id params p g h) (unreadable : p.Unreadable f)
    (well : g.store.WellRead) :
    runIn (buildParams data r { caller := some id, params }) g = (.error f, h) := by
  have known := wellRead_of_comesTo comes well
  obtain ⟨earlier, later, start, built, mid, v, split, copied, before, read⟩ := comes
  have stuck : runIn (apply data (some id) built p) mid = (.error f, h) := by
    apply runIn_bind_error
    obtain ⟨given, source, fault⟩ := unreadable
    unfold project
    rw [source]
    dsimp only
    rw [runIn_bind_ok read]
    rcases fault with noText | ⟨text, isText, expression, unread⟩
    · apply runIn_bind_error
      rw [runIn_liftResult, noText]
    · rw [runIn_bind_ok (t := h) (a := text) (by rw [runIn_liftResult, isText])]
      rw [search, runIn_inStore, Path.search_unread expression unread (known.unread unread)]
  unfold buildParams
  rw [runIn_bind_ok (t := g) (a := start) (by rw [runIn_liftResult, copied])]
  apply runIn_bind_error
  rw [split, List.foldlM_append, runIn_bind_ok before, List.foldlM_cons]
  exact runIn_bind_error stuck

/-- An operation with a single call fails when its request comes to a path that cannot be read. -/
theorem invoke_unreadable {o : Operation} (given : o.request? = some r)
    (calls : o.kind = .basic ∨ o.kind = .data ∨ o.kind = .resource ∨ o.kind = .load)
    (comes : r.ComesTo id params p g h) (unreadable : p.Unreadable f) (well : g.store.WellRead) :
    runIn (invoke o { caller := some id, params }) g = (.error f, h) := by
  have sent : runIn (sendRequest data r { caller := some id, params }) g = (.error f, h) :=
    runIn_bind_error (buildParams_unreadable comes unreadable well)
  unfold invoke
  cases work : o.work with
  | basic request | data request path | resource request builder =>
    simp only [Operation.request?, work, Option.some.injEq] at given
    subst given
    exact runIn_bind_error sent
  | load request path =>
    simp only [Operation.request?, work, Option.some.injEq] at given
    subst given
    exact runIn_bind_error (runIn_bind_error sent)
  | enumerateData _ _ | enumerateResource _ _ | reference _ =>
    simp [Operation.kind, work] at calls

/-- An enumeration fails in this way when its first element is asked for. -/
theorem next_unreadable {enumeration : EnumerationId} {harvest : Harvest}
    (there : g.enumerations[enumeration]? =
      some ⟨harvest, { caller := some id, params }, .untouched r⟩)
    (comes : r.ComesTo id params p (runIn (setProgress enumeration .exhausted) g).2 h)
    (unreadable : p.Unreadable f) (well : g.store.WellRead) :
    runIn (next enumeration) g = (.error f, h) := by
  unfold next
  rw [runIn_bind, runIn_get]
  dsimp only
  rw [there]
  dsimp only
  unfold advance
  rw [runIn_bind, runIn_setProgress]
  dsimp only
  apply runIn_bind_error
  exact runIn_bind_error (buildParams_unreadable comes unreadable well)

end Act

namespace Model

/-- **A compiled model fails because of its rules only where a projection has a path that cannot be
read**, and never because an identifier is missing. Such a projection fails whenever its turn comes,
in an operation with a single call when it is invoked, and in an enumeration when its first element
is asked for. -/
theorem faults_of_compile {given : Json} {service : String} {factory : Option Nat} {m : Model}
    {g : Graph} (compiled : compile given service factory = .ok m) (reached : m.Reached g) :
    (∀ (move : Move) f h, runIn move.act g = (.error f, h) → f.BlamesRules →
      (∃ fault, f = .definition fault) ∧ ∃ p, m.Projects p ∧ p.Unreadable f) ∧
    (∀ (o : Operation) r id params p f h, o.request? = some r →
      (o.kind = .basic ∨ o.kind = .data ∨ o.kind = .resource ∨ o.kind = .load) →
      r.ComesTo id params p g h → p.Unreadable f →
        runIn (Act.invoke o { caller := some id, params }) g = (.error f, h)) ∧
    ∀ (enumeration : EnumerationId) harvest r id params p f h,
      g.enumerations[enumeration]? = some ⟨harvest, { caller := some id, params }, .untouched r⟩ →
      r.ComesTo id params p (runIn (Act.setProgress enumeration .exhausted) g).2 h → p.Unreadable f →
        runIn (Act.next enumeration) g = (.error f, h) := by
  obtain ⟨d, _, declared, made⟩ := declared_of_compile compiled
  obtain ⟨scope, sound, _, _⟩ := sound_of_document declared made
  have safe := safe_of_reached sound reached
  refine ⟨fun move f h ran blames => ?_, ?_, ?_⟩
  · exact (Act.move_upholds faults_excuses move g safe trivial).2 f h ran blames
  · intro o r id params p f h has calls comes unreadable
    exact Act.invoke_unreadable has calls comes unreadable safe.expressions
  · intro enumeration harvest r id params p f h there comes unreadable
    exact Act.next_unreadable there comes unreadable safe.expressions

/-- A document with an action that reads a part of the data at `a[`, which is no path. -/
def misspelt : Json :=
  .object [("resources", .object [("user", .object [("identifiers", .list [.str "id"]),
    ("actions", .object [("drop", .object [("request", .object [("operation", .str "Drop"),
      ("params", .list [.object [("target", .str "x"), ("sourceType", .str "dataMember"),
        ("source", .str "a[")]])])])])])])]

set_option maxRecDepth 100000 in
/-- The model of that document, before any resource of it was used. -/
theorem faults_misspelt : ∃ m, compile misspelt "team" none = .ok m ∧
    ∀ (move : Move) f h, runIn move.act (Graph.ofModel m []) = (.error f, h) → f.BlamesRules →
      (∃ fault, f = .definition fault) ∧ ∃ p, m.Projects p ∧ p.Unreadable f := by
  have compiles : (compile misspelt "team" none).toOption.isSome = true := by cbv
  cases made : compile misspelt "team" none with
  | error fault => simp [made, Except.toOption] at compiles
  | ok m => exact ⟨m, rfl, (faults_of_compile made (.opened (by simp))).1⟩

/-- What it gives to drop a user with data, under the model of that document. -/
def dropsUser : Except Failure Outcome :=
  match compile misspelt "team" none with
  | .error fault => .error fault
  | .ok m => (runIn (do
      let user ← Act.construct ⟨0, "user"⟩ [] [("id", .str "1")] (some 0) (some (.object []))
      Act.callNamed user "drop" [] []) (Graph.ofModel m [.prepared {}])).1

set_option maxRecDepth 100000 in
/-- The document compiles, and the operation fails with a fault of the document. -/
theorem dropsUser_fails : dropsUser = .error (.definition (.invalidPath "'a['")) := by cbv

end Model

end ResourceGraph
