import ResourceGraph.Graph.Open
import ResourceGraph.Proofs.PageTraffic

/-!
The law of the calls of a model whose load requests read no data: which calls each operation makes
on the client of its resource, in which order, and what of these is made where it fails.
-/

namespace ResourceGraph

open ResourceGraph.Graph Store

namespace Act

variable {c : ClientId} {id : ResourceId} {g h : Graph} {method : String} {enumeration : EnumerationId}
  {e : Enumeration} {steps : Nat}

/-- So many steps of an enumeration make the first calls of so many pages, and all of them if no
step fails. The first step asks for a page if there is one. -/
def StepsIssue (c : ClientId) (id : ResourceId) (method : String) (enumeration : EnumerationId)
    (e : Enumeration) (steps : Nat) (g : Graph) : Prop :=
  let ran := runEach (List.replicate steps (next enumeration)) g
  ∃ pages made, made <+: e.demands g id method pages ∧ g.Traffic c id False made ran.2 ∧
    ((∀ f, Except.error f ∉ ran.1) → made = e.demands g id method pages ∧
      ∀ request, e.progress = .untouched request → g.HasPages c method → 0 < steps → 0 < pages)

/-- One step, and those after it. -/
theorem StepsIssue.succ (ready : g.Ready c id) (there : g.enumerations[enumeration]? = some e)
    (called : e.context.caller = some id) (calls : e.Calls g c method)
    (rest : ∀ h f, h.Ready c id → h.enumerations[enumeration]? = some f → f.context.caller = some id →
      f.Calls h c method → f.needs method 0 = [] → StepsIssue c id method enumeration f steps h) :
    StepsIssue c id method enumeration e (steps + 1) g := by
  obtain ⟨pages, takes, gives⟩ := next_takes ready there called calls
  unfold StepsIssue
  rw [List.replicate_succ, runEach]
  rcases ran : runIn (next enumeration) g with ⟨failure | found, h⟩
  · -- A step that failed has ended the enumeration, so that those after it do nothing.
    obtain ⟨made, early, traffic⟩ := takes.fails failure h ran
    rw [e.demands_of_needs] at early
    dsimp only
    rw [runEach_exhausted (next_ends there ran) rfl]
    exact ⟨pages, made, early, traffic, fun none => absurd List.mem_cons_self (none failure)⟩
  · have traffic := takes.succeeds found h ran
    obtain ⟨first, f, still, continues⟩ := gives found h ran
    obtain ⟨more, made, early, further, all⟩ := rest h f (ready.traffic traffic) still
      (continues.context ▸ called) continues.calls continues.started
    obtain ⟨total, enough, needs⟩ := continues.needs more
    have demands : e.demands g id method total =
        Need.demands (g.reading id) (e.needs method pages) ++ f.demands h id method more := by
      rw [← e.demands_of_needs, needs, Need.demands_append, ← takes.leaves found h ran,
        f.demands_of_needs]
    refine ⟨total, _ ++ made, ?_, traffic.trans further, fun none => ?_⟩
    · rw [demands]
      exact (List.prefix_append_right_inj _).mpr early
    · obtain ⟨same, _⟩ := all fun f member => none f (List.mem_cons_of_mem _ member)
      refine ⟨by rw [same, demands], fun request untouched has _ => ?_⟩
      exact Nat.lt_of_lt_of_le (first request untouched has) enough

/-- Once the parameters are built, all steps that follow make the calls of pages. -/
theorem stepsIssue_of_started (ready : g.Ready c id) (there : g.enumerations[enumeration]? = some e)
    (called : e.context.caller = some id) (calls : e.Calls g c method)
    (started : e.needs method 0 = []) :
    StepsIssue c id method enumeration e steps g := by
  induction steps generalizing g e with
  | zero =>
    refine ⟨0, [], List.nil_prefix, (quiet_lasting.refl g).traffic, fun _ => ⟨?_, nofun⟩⟩
    rw [← e.demands_of_needs, started]
    rfl
  | succ steps ih => exact .succ ready there called calls fun h f => ih

/-- The first step builds the parameters, if they are still to be built. -/
theorem stepsIssue (ready : g.Ready c id) (there : g.enumerations[enumeration]? = some e)
    (called : e.context.caller = some id) (calls : e.Calls g c method) :
    StepsIssue c id method enumeration e (steps + 1) g :=
  .succ ready there called calls fun _ _ => stepsIssue_of_started

/-- An operation that is gone through only begins an enumeration. -/
theorem begun_of_callOperation {o : Operation} {request : Request} {harvest : Harvest} {name : String}
    {unnamed : List Json} {named : Keyed Json} {outcome : Outcome}
    (enumerates : o.enumerates? = some (request, harvest))
    (ran : runIn (callOperation id name o unnamed named) g = (.ok outcome, h)) :
    ∃ context : Context, context.caller = some id ∧ outcome = .enumeration g.enumerations.size ∧
      h = { g with enumerations := g.enumerations.push ⟨harvest, context, .untouched request⟩ } := by
  unfold callOperation at ran
  split at ran
  · next work => simp [Operation.enumerates?, work] at enumerates
  · obtain ⟨params, mid, lifted, ran⟩ := bind_gives.mp ran
    obtain ⟨_, rfl⟩ := lift_gives lifted
    rw [runIn_invoke_enumerates enumerates] at ran
    cases ran
    exact ⟨_, rfl, rfl, rfl⟩

end Act

namespace Model

/-- The load requests of the model read no data. -/
def LoadsPlainly (m : Model) : Prop :=
  ∀ type ∈ (Graph.ofModel m []).types, ∀ o request path, type.load = some o →
    o.work = .load request path → request.ReadsNoData

theorem LoadsPlainly.ready {m : Model} {g : Graph} {id : ResourceId} {r : Resource}
    (plain : m.LoadsPlainly) (types : g.types = (Graph.ofModel m []).types)
    (there : g.resources[id]? = some r) :
    g.Ready r.client id where
  calls := ⟨r, there, rfl⟩
  plain s request path loads := by
    obtain ⟨o, found, work⟩ := Option.map_eq_some_iff.mp loads.work
    obtain ⟨type, typed, set⟩ := Option.bind_eq_some_iff.mp found
    rw [types] at typed
    exact plain type (Array.mem_of_getElem? typed) o request path set work

/-- **An operation makes its own call once, and loads the data of its resource at most once.** This
is whatever the operation is, the state of the resources and the replies of the clients. A call or a
load makes the calls of its resource that it demands, in order, or the first of them where it fails;
to begin an enumeration makes none, and the steps of it make one paginated call, with which they go
on whatever else is called meanwhile. The data of a resource is only assigned by a load, or where
there was none and it is read; and never that of another resource. -/
theorem calls_of_operations {m : Model} (plain : m.LoadsPlainly) {g : Graph}
    (types : g.types = (Graph.ofModel m []).types) {id : ResourceId} {r : Resource}
    (there : g.resources[id]? = some r) :
    (∀ name (o : Operation) unnamed named, Act.Issues r.client id (o.kind = .load) (o.demands g id name)
      (Act.callOperation id name o unnamed named) g) ∧
    (∀ unnamed named, Act.Issues r.client id True (g.loadCall id) (Act.callLoad id unnamed named) g) ∧
    (∀ name (o : Operation) request harvest unnamed named outcome h,
      o.enumerates? = some (request, harvest) →
      runIn (Act.callOperation id name o unnamed named) g = (.ok outcome, h) →
        ∃ context : Context, context.caller = some id ∧ outcome = .enumeration g.enumerations.size ∧
          h = { g with enumerations := g.enumerations.push ⟨harvest, context, .untouched request⟩ }) ∧
    ∀ enumeration e method steps, g.enumerations[enumeration]? = some e → e.context.caller = some id →
      e.Calls g r.client method → Act.StepsIssue r.client id method enumeration e (steps + 1) g ∧
        ∀ other x loading demands h, g.Traffic other x loading demands h →
          e.Calls h r.client method := by
  have ready := plain.ready types there
  refine ⟨fun name o => Act.callOperation_issues ready name o, Act.callLoad_issues ready, ?_, ?_⟩
  · intro name o request harvest unnamed named outcome h enumerates
    exact Act.begun_of_callOperation enumerates
  · intro enumeration e method steps begun called calls
    refine ⟨Act.stepsIssue ready begun called calls, fun other x loading demands h traffic => ?_⟩
    exact calls.traffic traffic

/-- Items that are fetched when their data is read. -/
def stock : Model :=
  ⟨"stock", { name := "stock" },
    [("Item", { name := "Item", load := some ⟨.load ⟨"Get", []⟩ "@", {}⟩ })]⟩

/-- A parameter is the price of the item. -/
def priced : List Projection := [⟨⟨"Price", .key "Price"⟩, .dataMember (.str "price")⟩]

/-- To sell an item at its price. -/
def sell : Operation := ⟨.basic ⟨"Sell", priced⟩, {}⟩

/-- An item that was not fetched yet, and its sales, which are begun to be gone through. -/
def stocked : Graph where
  types := (Graph.ofModel stock []).types
  clients := #[.prepared {
    calls :=
      [("Get", [⟨.data (.object [("price", .str "low")]), none⟩]), ("Sell", [⟨.data .null, none⟩])]
    pages := [("Sales", [⟨.data (.object [("Sold", .list [.str "a", .str "b"])]), none⟩])] }]
  resources := #[{ type := ⟨0, "Item"⟩, identifiers := [], client := 0 }]
  enumerations := #[⟨.values "Sold", { caller := some 0 }, .untouched ⟨"Sales", priced⟩⟩]

/-- To sell the item its price is fetched before the call. Two steps of its sales fetch it too, and
then ask for one page. -/
theorem calls_of_operations_stocked :
    (∃ outcome h, runIn (Act.callOperation 0 "sell" sell [] []) stocked = (.ok outcome, h) ∧
      stocked.Traffic 0 0 False [.single "Get", .single "Sell"] h) ∧
    Act.StepsIssue 0 0 "Sales" 0 ⟨.values "Sold", { caller := some 0 }, .untouched ⟨"Sales", priced⟩⟩ 2
      stocked := by
  have plain : stock.LoadsPlainly := by
    intro type member o request path set work
    simp [Graph.ofModel, stock] at member
    rcases member with rfl | rfl <;> cases set
    cases work
    nofun
  have there : stocked.resources[0]? = some ⟨⟨0, "Item"⟩, [], 0, none, []⟩ := rfl
  have types : stocked.types = (Graph.ofModel stock []).types := rfl
  obtain ⟨calls, _, _, walks⟩ := calls_of_operations plain types there
  refine ⟨?_, (walks 0 _ "Sales" 1 rfl rfl rfl).1⟩
  have goes : (runIn (Act.callOperation 0 "sell" sell [] []) stocked).1.toOption.isSome = true := by cbv
  rcases ran : runIn (Act.callOperation 0 "sell" sell [] []) stocked with ⟨f | outcome, h⟩
  · rw [ran] at goes
    cases goes
  · have traffic := (calls "sell" sell [] []).succeeds outcome h ran
    have other : (sell.kind = .load) = False := eq_false (by decide)
    have demanded : sell.demands stocked 0 "sell" = [.single "Get", .single "Sell"] := by rfl
    rw [other, demanded] at traffic
    exact ⟨outcome, h, rfl, traffic⟩

end Model

end ResourceGraph
