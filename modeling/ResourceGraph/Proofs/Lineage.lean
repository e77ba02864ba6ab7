import ResourceGraph.Proofs.DefinitionFaults
import ResourceGraph.Proofs.Incomplete

/-!
Everything that is come by from a root. Whoever makes the root of a compiled model for a client, and
goes on from it through operations of what was come by and through the elements of their
enumerations, comes by resources of the model only: they call the same client, and have the
identifiers of their types. This holds whatever the clients reply, and whatever else is done with
the graph in the meantime.
-/

namespace ResourceGraph

open ResourceGraph.Graph

/-- The resources and the enumerations that were come by in a graph, from roots of the model that
call the client. Clients may become any others at any time, so that they may reply whatever they
like, and anything else can be done with the graph. -/
inductive Model.Trail (m : Model) (c : ClientId) : Graph → List ResourceId → List EnumerationId → Prop
  | opened (clients : List Client) : m.Trail c (Graph.ofModel m clients) [] []
  | served {g : Graph} {resources : List ResourceId} {enumerations : List EnumerationId}
    (before : m.Trail c g resources enumerations) (clients : Array Client) :
    m.Trail c { g with clients } resources enumerations
  | moved {g : Graph} {resources : List ResourceId} {enumerations : List EnumerationId}
    (before : m.Trail c g resources enumerations) (move : Move) :
    m.Trail c (runIn move.act g).2 resources enumerations
  | rooted {g h : Graph} {resources : List ResourceId} {enumerations : List EnumerationId}
      {id : ResourceId}
    (before : m.Trail c g resources enumerations)
    (made : runIn (Act.root m (some c)) g = (.ok id, h)) :
    m.Trail c h (id :: resources) enumerations
  /-- A name of a resource was called, which is not that of its type. -/
  | called {g h : Graph} {resources : List ResourceId} {enumerations : List EnumerationId}
      {id : ResourceId}
    {name : String} {unnamed : List Json} {named : Keyed Json} {outcome : Outcome}
    (before : m.Trail c g resources enumerations) (held : id ∈ resources) (other : ¬ Act.namesType name)
    (gave : runIn (Act.callNamed id name unnamed named) g = (.ok outcome, h)) :
    m.Trail c h (outcome.resources ++ resources) (outcome.enumerations ++ enumerations)
  /-- The next element of an enumeration was a resource. -/
  | taken {g h : Graph} {resources : List ResourceId} {enumerations : List EnumerationId}
      {x : ResourceId}
    {id : EnumerationId} (before : m.Trail c g resources enumerations) (begun : id ∈ enumerations)
    (gave : runIn (Act.next id) g = (.ok (some (.resource x)), h)) :
    m.Trail c h (x :: resources) enumerations

/-- What was come by: the resources are whole, and the enumerations were begun by whole resources. -/
structure Graph.Holds (m : Model) (c : ClientId) (g : Graph) (resources : List ResourceId)
    (enumerations : List EnumerationId) : Prop where
  resources : ∀ id ∈ resources, g.Has m c id
  enumerations : ∀ id ∈ enumerations, ∃ context owner, g.Begun id context ∧
    context.caller = some owner ∧ g.Has m c owner

namespace Graph

variable {m : Model} {c : ClientId} {g h : Graph} {resources : List ResourceId}
  {enumerations : List EnumerationId}

theorem Holds.goesOn (holds : g.Holds m c resources enumerations) (on : g.GoesOn h) :
    h.Holds m c resources enumerations where
  resources id member := (holds.resources id member).goesOn on
  enumerations id member := by
    obtain ⟨context, owner, begun, called, has⟩ := holds.enumerations id member
    exact ⟨context, owner, begun.goesOn on, called, has.goesOn on⟩

/-- What a whole resource gives can be held too. -/
theorem Gives.holds {id : ResourceId} {o : Outcome} (gives : g.Gives m id o) (has : g.Has m c id) :
    g.Holds m c o.resources o.enumerations where
  resources x member := by
    rcases gives.resources x member with rfl | kin
    · exact has
    · exact kin.has has
  enumerations x member := by
    obtain ⟨context, begun, called⟩ := gives.enumerations x member
    exact ⟨context, id, begun, called, has⟩

theorem Has.holds {id : ResourceId} (has : g.Has m c id) : g.Holds m c [id] [] where
  resources x member := by
    obtain rfl := List.mem_singleton.mp member
    exact has
  enumerations x member := by cases member

theorem Holds.append {others : List ResourceId} {further : List EnumerationId}
    (holds : g.Holds m c resources enumerations) (more : g.Holds m c others further) :
    g.Holds m c (others ++ resources) (further ++ enumerations) where
  resources id member := (List.mem_append.mp member).elim (more.resources id) (holds.resources id)
  enumerations id member :=
    (List.mem_append.mp member).elim (more.enumerations id) (holds.enumerations id)

end Graph

namespace Act

variable {m : Model} {g : Graph}

/-- A root calls the client it is made for, and is of the root type. -/
theorem root_yields (kindred : g.Kindred m) (c : ClientId) :
    Yields m (fun h id => h.Has m c id) (Act.root m (some c)) g := by
  have keeps := construct_makes building_settled.making m.rootRef [] [] (some c) none
  refine ⟨.of_change (keeps g).change, kindred.of_settled (keeps g), fun id h ran => ?_⟩
  obtain ⟨r, identified, type, bare, client, _, rfl, rfl⟩ := construct_gives ran
  rw [← type] at identified
  have whole := Resource.New.whole kindred.types ⟨⟨_, identified⟩, bare⟩ (.inl ⟨type, rfl⟩)
  exact ⟨r, Array.getElem?_push_size, client c rfl ▸ whole⟩

/-- Whatever is done, the graph stays one of the model. -/
theorem move_yields (formed : m.WellFormed) (kindred : g.Kindred m) (move : Move) :
    Yields m anything move.act g := by
  cases move with
  | make type unnamed named client data =>
    exact .map
      (.settled kindred (construct_makes building_settled.making type unnamed named client data))
      fun _ _ _ => trivial
  | call id name unnamed named =>
    exact .map (callNamed_yields formed kindred id name unnamed named) fun _ _ _ => trivial
  | read id =>
    exact .map (.settled kindred (data_building (fun _ _ => trivial) building_settled id))
      fun _ _ _ => trivial
  | assign id given =>
    refine .after kindred (settled_of_receive given) fun data mid _ _ kindred => ?_
    exact .settled kindred fun g => building_settled.sets g id data
  | next id => exact .map (next_yields kindred id) fun _ _ _ => trivial

end Act

namespace Model

variable {m : Model} {c : ClientId} {g : Graph} {resources : List ResourceId}
  {enumerations : List EnumerationId}

private theorem kindred_opened (m : Model) (clients : List Client) :
    (Graph.ofModel m clients).Kindred m where
  types := rfl
  references id r there := by simp [Graph.ofModel] at there
  enumerations id e there := by simp [Graph.ofModel] at there

/-- Every step of a trail leaves a graph of the model, and what was come by so far is held by it. -/
theorem Trail.holds (formed : m.WellFormed) (trail : m.Trail c g resources enumerations) :
    g.Kindred m ∧ g.Holds m c resources enumerations := by
  induction trail with
  | opened clients => exact ⟨kindred_opened m clients, nofun, nofun⟩
  | served before clients ih =>
    obtain ⟨kindred, holds⟩ := ih
    refine ⟨⟨kindred.types, kindred.references, fun id e there => ?_⟩, holds.resources,
      holds.enumerations⟩
    exact ⟨(kindred.enumerations id e there).target, (kindred.enumerations id e there).elements⟩
  | moved before move ih =>
    obtain ⟨kindred, holds⟩ := ih
    obtain ⟨on, kindred, _⟩ := Act.move_yields formed kindred move
    exact ⟨kindred, holds.goesOn on⟩
  | rooted before made ih =>
    obtain ⟨kindred, holds⟩ := ih
    obtain ⟨on, kindred, has⟩ := Act.root_yields kindred c
    rw [made] at on kindred
    exact ⟨kindred, (holds.goesOn on).append (has _ _ made).holds⟩
  | @called g h resources enumerations id name unnamed named outcome before held other gave ih =>
    obtain ⟨kindred, holds⟩ := ih
    obtain ⟨on, kindred, gives⟩ := Act.callNamed_yields formed kindred id name unnamed named
    rw [gave] at on kindred
    have has := (holds.resources id held).goesOn on
    exact ⟨kindred, (holds.goesOn on).append ((gives outcome h gave other).holds has)⟩
  | @taken g h resources enumerations x id before begun gave ih =>
    obtain ⟨kindred, holds⟩ := ih
    obtain ⟨context, owner, ⟨e, there, rfl⟩, called, has⟩ := holds.enumerations id begun
    obtain ⟨on, kindred, found⟩ := Act.next_yields kindred id
    rw [gave] at on kindred
    have kin := found _ h gave e there x rfl
    rw [called] at kin
    exact ⟨kindred, (holds.goesOn on).append (kin.has (has.goesOn on)).holds⟩

/-- **Everything that is come by from a root of a compiled model is whole**: it calls the client of
the root, is of a type of the model, and has the identifiers of the type in their order, none of
them null. And whatever would have to build a resource without one of its identifiers fails: an
operation of a resource, and then no reference is kept; and the step of an enumeration, and then it
has ended. -/
theorem lineage_of_compile {given : Json} {service : String} {factory : Option Nat} {m : Model}
    (compiled : compile given service factory = .ok m) :
    (∀ (c : ClientId) g resources enumerations, m.Trail c g resources enumerations →
      ∀ id ∈ resources, ∃ r, g.resources[id]? = some r ∧ r.Whole m c) ∧
    (∀ (g : Graph) (o : Operation) id name unnamed named b context mid,
      o.Builds id name unnamed named g b context mid → b.Incomplete context mid →
        ∃ f h, runIn (Act.callOperation id name o unnamed named) g = (.error f, h) ∧ g.Settled h) ∧
    ∀ (g : Graph) id e b page mid, g.enumerations[id]? = some e → e.harvest = .resources b →
      e.ComesTo id g page mid → b.Incomplete { e.context with response := some page } mid →
        ∃ f h, runIn (Act.next id) g = (.error f, h) ∧ h.enumerations[id]? = some (Act.sought e) := by
  obtain ⟨formed, _⟩ := wellFormed_of_compile compiled
  refine ⟨fun c g resources enumerations trail => (trail.holds formed).2.resources, ?_, ?_⟩
  · intro g o id name unnamed named b context mid builds incomplete
    exact Act.callOperation_fails builds incomplete
  · intro g id e b page mid there builds comes incomplete
    exact Act.next_fails there builds comes incomplete

/-- From a root to one of its users, and on to the boss of that. -/
def walk (m : Model) : Act (ResourceId × Outcome × Outcome) := do
  let root ← Act.root m (some 0)
  let user ← Act.callNamed 0 "user" [.str "ann"] []
  let boss ← Act.callNamed 1 "boss" [] []
  return (root, user, boss)

set_option maxRecDepth 100000 in
/-- The model of a type that refers to itself, and what that walk comes by. -/
theorem lineage_selfReferring : ∃ m g, compile selfReferring "team" none = .ok m ∧
    m.Trail 0 g [2, 1, 0] [] ∧ ∀ id ∈ [2, 1, 0], ∃ r, g.resources[id]? = some r ∧ r.Whole m 0 := by
  have walks : ((compile selfReferring "team" none).toOption.bind fun m =>
      (runIn (walk m) (Graph.ofModel m [])).1.toOption) =
        some (0, .built (.one 1), .built (.one 2)) := by cbv
  cases made : compile selfReferring "team" none with
  | error fault => simp [made, Except.toOption] at walks
  | ok m =>
    rw [made] at walks
    rcases ran : runIn (walk m) (Graph.ofModel m []) with ⟨f | steps, g⟩
    · simp [Except.toOption, ran] at walks
    · simp only [Except.toOption, ran, Option.bind_some, Option.some.injEq] at walks
      subst walks
      obtain ⟨root, g₁, rooted, ran⟩ := bind_gives.mp ran
      obtain ⟨user, g₂, called, ran⟩ := bind_gives.mp ran
      obtain ⟨boss, g₃, again, ran⟩ := bind_gives.mp ran
      cases ran
      have trail : m.Trail 0 g [2, 1, 0] [] :=
        .called (.called (.rooted (.opened []) rooted) (by simp) (by simp [Act.namesType]) called)
          (by simp [Outcome.resources, Built.members]) (by simp [Act.namesType]) again
      exact ⟨m, g, rfl, trail, (lineage_of_compile made).1 0 g _ _ trail⟩

end Model

end ResourceGraph
