import ResourceGraph.Graph.Invoke
import ResourceGraph.Proofs.Evaluation

/-!
How actions change a graph. Calling a client changes the store, the client that is called and the
record of calls; building resources adds to them; loading data and keeping references change what a
resource holds, but never its type, its identifiers or its client. Types and enumerations stay.
Every action here is shown to change a graph in no other way, whether it succeeds or fails.
-/

namespace ResourceGraph

/-- What a client goes on as when it is called: it uses up replies, and is otherwise the same. -/
def Client.GoesOn : Client → Client → Prop
  | .prepared s, .prepared t => t.calls = s.calls ∧ t.pages = s.pages
  | .http c, .http d => d = { c with replies := d.replies } ∧ d.replies <:+ c.replies
  | .standIn v, .standIn w => v = w
  | _, _ => False

theorem Client.goesOn_lasting : Lasting Client.GoesOn where
  refl c := by cases c <;> simp [GoesOn]
  trans {a b c} first second := by
    cases a <;> cases b <;> cases c <;> simp only [GoesOn] at first second ⊢
    · exact ⟨second.1.trans first.1, second.2.trans first.2⟩
    · obtain ⟨same, left⟩ := first
      obtain ⟨again, after⟩ := second
      refine ⟨?_, after.trans left⟩
      rw [again, same]
    · exact first.trans second

/-- The resource has the identifiers that its type declares, if the type is there. -/
def Resource.Fits (types : Array ResourceType) (r : Resource) : Prop :=
  ∀ type, types[r.type.index]? = some type → Keyed.keys r.identifiers = type.identifiers

/-- The resource was just made: its identifiers are what its type made of the values it was given,
and it keeps no references. -/
structure Resource.New (types : Array ResourceType) (r : Resource) : Prop where
  identified : ∃ given, ((types[r.type.index]?).getD { name := r.type.name }).identify given =
    .ok r.identifiers
  references : r.references = []

/-- The same resource, whatever data and references it holds. -/
structure Resource.Remains (r s : Resource) : Prop where
  type : s.type = r.type
  identifiers : s.identifiers = r.identifiers
  client : s.client = r.client

theorem Resource.remains_lasting : Lasting Resource.Remains where
  refl _ := ⟨rfl, rfl, rfl⟩
  trans first second := ⟨second.type.trans first.type, second.identifiers.trans first.identifiers,
    second.client.trans first.client⟩

/-- The call asks for a page. -/
def Exchange.asksPage : Exchange → Bool
  | .page .. => true
  | _ => false

/-- Any call but one for a page. -/
def Exchange.Single (x : Exchange) : Prop := x.asksPage = false

/-- Calling changes a graph in this way. The calls that are made are of the kind. -/
structure Graph.Calls (kind : Exchange → Prop) (g h : Graph) : Prop where
  store : g.store.Learns h.store
  types : h.types = g.types
  resources : h.resources = g.resources
  enumerations : h.enumerations = g.enumerations
  clients : ∀ (id : ClientId) c, g.clients[id]? = some c → ∃ d, h.clients[id]? = some d ∧ c.GoesOn d
  known : h.clients.size = g.clients.size
  exchanges : ∃ more, h.exchanges.toList = g.exchanges.toList ++ more ∧ ∀ x ∈ more, kind x

/-- Actions change a graph in this way. The calls that are made are of the kind. -/
structure Graph.Change (kind : Exchange → Prop) (g h : Graph) : Prop where
  store : g.store.Learns h.store
  types : h.types = g.types
  enumerations : h.enumerations = g.enumerations
  resources : ∀ (id : ResourceId) r, g.resources[id]? = some r →
    ∃ s, h.resources[id]? = some s ∧ r.Remains s
  added : ∀ (id : ResourceId) r, h.resources[id]? = some r → g.resources.size ≤ id → r.Fits g.types
  clients : ∀ (id : ClientId) c, g.clients[id]? = some c → ∃ d, h.clients[id]? = some d ∧ c.GoesOn d
  connected : ∀ (id : ClientId) c, h.clients[id]? = some c → g.clients.size ≤ id → ∃ v, c = .standIn v
  exchanges : ∃ more, h.exchanges.toList = g.exchanges.toList ++ more ∧ ∀ x ∈ more, kind x

namespace Graph

variable {kind : Exchange → Prop}

theorem calls_lasting : Lasting (Calls kind) where
  refl g := ⟨Store.learns_lasting.refl _, rfl, rfl, rfl,
    fun _ c there => ⟨c, there, Client.goesOn_lasting.refl c⟩, rfl, [], by simp, by simp⟩
  trans {g h i} first second := by
    obtain ⟨more, one, kinds⟩ := first.exchanges
    obtain ⟨further, two, others⟩ := second.exchanges
    refine ⟨Store.learns_lasting.trans first.store second.store, second.types.trans first.types,
      second.resources.trans first.resources, second.enumerations.trans first.enumerations,
      Client.goesOn_lasting.members first.clients second.clients,
      second.known.trans first.known, more ++ further, ?_, ?_⟩
    · rw [two, one, List.append_assoc]
    · intro x member
      rcases List.mem_append.mp member with early | late
      · exact kinds x early
      · exact others x late

theorem change_lasting : Lasting (Change kind) where
  refl g := by
    refine ⟨Store.learns_lasting.refl _, rfl, rfl,
      fun _ r there => ⟨r, there, Resource.remains_lasting.refl r⟩, ?_,
      fun _ c there => ⟨c, there, Client.goesOn_lasting.refl c⟩, ?_, [], by simp, by simp⟩
    · intro id r there outside
      obtain ⟨inside, _⟩ := Array.getElem?_eq_some_iff.mp there
      omega
    · intro id c there outside
      obtain ⟨inside, _⟩ := Array.getElem?_eq_some_iff.mp there
      omega
  trans {g h i} first second := by
    obtain ⟨more, one, kinds⟩ := first.exchanges
    obtain ⟨further, two, others⟩ := second.exchanges
    refine ⟨Store.learns_lasting.trans first.store second.store, second.types.trans first.types,
      second.enumerations.trans first.enumerations,
      Resource.remains_lasting.members first.resources second.resources, ?_,
      Client.goesOn_lasting.members first.clients second.clients, ?_, more ++ further, ?_, ?_⟩
    · intro id r there outside
      by_cases early : id < h.resources.size
      · -- The resource was added first, and remained what it was.
        obtain ⟨s, last, remains⟩ := second.resources id _ (Array.getElem?_eq_getElem early)
        rw [there] at last
        cases last
        have fits := first.added id _ (Array.getElem?_eq_getElem early) outside
        intro type found
        rw [remains.type] at found
        rw [remains.identifiers]
        exact fits type found
      · rw [← first.types]
        exact second.added id r there (Nat.le_of_not_lt early)
    · intro id c there outside
      by_cases early : id < h.clients.size
      · obtain ⟨e, last, on⟩ := second.clients id _ (Array.getElem?_eq_getElem early)
        rw [there] at last
        cases last
        obtain ⟨v, standIn⟩ := first.connected id _ (Array.getElem?_eq_getElem early) outside
        rw [standIn] at on
        cases c with
        | standIn w => exact ⟨w, rfl⟩
        | prepared s => exact on.elim
        | http d => exact on.elim
      · exact second.connected id c there (Nat.le_of_not_lt early)
    · rw [two, one, List.append_assoc]
    · intro x member
      rcases List.mem_append.mp member with early | late
      · exact kinds x early
      · exact others x late

/-- To call is to change a graph, without touching resources. -/
theorem Calls.change {g h : Graph} (calls : Calls kind g h) : Change kind g h := by
  refine ⟨calls.store, calls.types, calls.enumerations, ?_, ?_, calls.clients, ?_, calls.exchanges⟩
  · intro id r there
    exact ⟨r, calls.resources ▸ there, Resource.remains_lasting.refl r⟩
  · intro id r there outside
    rw [calls.resources] at there
    obtain ⟨inside, _⟩ := Array.getElem?_eq_some_iff.mp there
    omega
  · intro id c there outside
    obtain ⟨inside, _⟩ := Array.getElem?_eq_some_iff.mp there
    have known := calls.known
    omega

end Graph

end ResourceGraph
