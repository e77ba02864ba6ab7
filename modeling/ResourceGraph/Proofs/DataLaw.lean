import ResourceGraph.Proofs.Confinement

/-!
The data of one resource under reads, assignments and loads, in any order and however the client
replies. What is there is read without a call; what is not is loaded with one; an explicit load
always calls. After a success the data is what was found, null included; after a failure it is what
it was. So a read gives what the latest success left. This is so of the data itself; its content is
safe as long as it shares no container with the identifiers that the load request projects, because
the request writes into those.
-/

namespace ResourceGraph

open ResourceGraph.Graph Store

/-- What is done with the data of a resource. A load takes at most one value without a name. -/
inductive DataUse
  | read
  | assign (v : Datum)
  | load (given : Option Json) (named : Keyed Json)

namespace DataUse

/-- What a use does. Only a read gives something. -/
def act (id : ResourceId) : DataUse → Act (Option Datum)
  | read => do return some (← Act.data id)
  | assign v => do
    Act.setData id v
    return none
  | load given named => do
    let _ ← Act.callLoad id given.toList named
    return none

/-- What uses give one after another, and the graph that they lead to. -/
def run (id : ResourceId) (uses : List DataUse) (g : Graph) :
    List (Except Failure (Option Datum)) × Graph :=
  runEach (uses.map (act id)) g

/-- The graph that uses lead to. -/
abbrev after (id : ResourceId) (uses : List DataUse) (g : Graph) : Graph := (run id uses g).2

/-- What the uses assign last. -/
def assigned (start : Option Datum) (uses : List DataUse) : Option Datum :=
  uses.foldl (fun held use =>
    match use with
    | assign v => some v
    | _ => held) start

end DataUse

/-- A failure as a read gives it: what has no such attribute is taken to be the resource. -/
def Failure.whenRead (type : String) (f : Failure) : Failure :=
  if f.isMissingAttribute then .unknownOperation "data" (some type) else f

/-- What the data is after turns. -/
def Turn.latest (start : Option Datum) (turns : List Turn) : Option Datum :=
  turns.foldl (fun held turn => turn.became.or held) start

namespace Graph

variable {g h : Graph} {id : ResourceId} {r : Resource} {request : Request} {path : String} {v : Datum}

theorem held_of_there (there : g.resources[id]? = some r) : g.held id = r.data := by
  unfold held
  rw [there]
  rfl

theorem there_withData (there : g.resources[id]? = some r) (v : Datum) :
    (g.withData id v).resources[id]? = some { r with data := some v } := by
  change (g.resources.modify id _)[id]? = _
  rw [Array.getElem?_modify, there]
  simp

theorem held_withData (there : g.resources[id]? = some r) (v : Datum) :
    (g.withData id v).held id = some v := held_of_there (there_withData there v)

theorem Loads.of_calls {kind : Exchange → Prop} (loads : g.Loads id r request path)
    (calls : Calls kind g h) : h.Loads id r request path := by
  refine ⟨?_, ?_⟩
  · rw [calls.resources]
    exact loads.there
  · rw [calls.types]
    exact loads.work

theorem Loads.withData (loads : g.Loads id r request path) (v : Datum) :
    (g.withData id v).Loads id { r with data := some v } request path :=
  ⟨there_withData loads.there v, loads.work⟩

end Graph

namespace Act

variable {g h : Graph} {id : ResourceId} {r : Resource} {request : Request} {path : String}

/-! ## One use -/

theorem runIn_cachedOr {otherwise : Act Datum} (there : g.resources[id]? = some r) :
    runIn (cachedOr otherwise id) g =
      match r.data with
      | some v => (.ok v, g)
      | none => runIn otherwise g := by
  have resourced : runIn (resource id) g = (.ok r, g) := resource_runs there
  unfold cachedOr
  rw [runIn_bind_ok resourced]
  cases r.data <;> rfl

/-- Data that is there is read, and nothing is called or changed. -/
theorem runIn_data_held {v : Datum} (held : g.held id = some v) : runIn (data id) g = (.ok v, g) := by
  unfold Graph.held at held
  obtain ⟨r, there, found⟩ := Option.bind_eq_some_iff.mp held
  unfold data
  rw [runIn_cachedOr there, found]

theorem runIn_loadedData (loads : g.Loads id r request path) (plain : request.ReadsNoData) :
    ∃ turn mid, Loading r.client request path { caller := some id } g turn mid ∧
      ((∃ v, turn.became = some v ∧ runIn (loadedData id) g = (.ok v, mid.withData id v)) ∨
        ∃ f, turn.failure? = some f ∧
          runIn (loadedData id) g = (.error (f.whenRead r.type.name), mid)) := by
  obtain ⟨turn, mid, loading, went⟩ := loading_of_load loads plain .null
  have still := loads.of_calls (calls_of_loading plain loading)
  refine ⟨turn, mid, loading, ?_⟩
  unfold load at went
  unfold loadedData loadedBy
  rw [runIn_tryCatch]
  rcases went with ⟨v, found, ran⟩ | ⟨f, _, failed, ran⟩
  · refine .inl ⟨v, found, ?_⟩
    rw [runIn_bind_ok ran, runIn_cachedOr (there_withData still.there v)]
  · refine .inr ⟨f, failed, ?_⟩
    have resourced : runIn (resource id) mid = (.ok r, mid) := resource_runs still.there
    rw [runIn_bind_error ran]
    dsimp only
    unfold Failure.whenRead
    split
    · rw [runIn_bind_ok resourced]
      rfl
    · rfl

/-- What is so after every turn of the data of a resource. -/
structure Kept (id : ResourceId) (r : Resource) (request : Request) (path : String) (g : Graph)
    (turns : List Turn) (h : Graph) : Prop where
  loads : ∃ data, h.Loads id { r with data } request path
  held : h.held id = Turn.latest (g.held id) turns
  clients : ∀ script, g.clients[r.client]? = some (.prepared script) →
    ∃ later, h.clients[r.client]? = some (.prepared later)
  exchanges : ∀ script, g.clients[r.client]? = some (.prepared script) → h.exchanges.toList =
    g.exchanges.toList ++
      ((turns.flatMap Turn.calls).flatMap Option.toList).map (.call r.client request.method)
  apart : ∀ v, g.store.Apart v (request.projected r) → h.store.Apart v (request.projected r) ∧
    ∀ depth, h.store.treeTo depth v = g.store.treeTo depth v

theorem Kept.trans {mid : Graph} {early late : List Turn} (first : Kept id r request path g early mid)
    (second : Kept id r request path mid late h) : Kept id r request path g (early ++ late) h := by
  refine ⟨second.loads, ?_, fun script prepared => ?_, fun script prepared => ?_, fun v apart => ?_⟩
  · rw [second.held, first.held]
    exact (List.foldl_append ..).symm
  · obtain ⟨later, still⟩ := first.clients script prepared
    exact second.clients later still
  · obtain ⟨later, still⟩ := first.clients script prepared
    rw [second.exchanges later still, first.exchanges script prepared]
    simp
  · obtain ⟨still, same⟩ := first.apart v apart
    obtain ⟨last, again⟩ := second.apart v still
    exact ⟨last, fun depth => (again depth).trans (same depth)⟩

section Unloadable

variable {type : ResourceType}

end Unloadable

end Act

/-! ## All uses -/

namespace Graph

variable {g : Graph} {id : ResourceId} {r : Resource} {type : ResourceType}

/-- The load request of users: it projects their tags, and adds to them. -/
def tagging : Request :=
  ⟨"Get", [⟨⟨"X", .key "X"⟩, .identifier (.str "tags")⟩, ⟨⟨"X[]", .append "X"⟩, .text "z"⟩]⟩

/-- Two users with the same tags, of a client that fails every call. The data of the first is its
tags; that of the second is a list of its own. -/
def tagged : Graph where
  store := { cells := #[.data (.list [.str "a"]), .data (.list [.str "a"])] }
  types := #[{ name := "User", identifiers := ["tags"], load := some ⟨.load tagging "Item", {}⟩ }]
  clients := #[.prepared { calls := [("Get", [⟨.failure "down", none⟩])] }]
  resources := #[
    { type := ⟨0, "User"⟩, identifiers := [("tags", .shared ⟨0⟩)], client := 0,
      data := some (.shared ⟨0⟩) },
    { type := ⟨0, "User"⟩, identifiers := [("tags", .shared ⟨0⟩)], client := 0,
      data := some (.shared ⟨1⟩) }]

end Graph

end ResourceGraph
