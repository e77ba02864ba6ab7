import ResourceGraph.Proofs.Remembering

/-!
Operations as attributes. An operation of a compiled model is called through its name, or invoked by
it, and both ways are one: they give the same, make the same calls and leave the same graph. Only a
name that starts with an underscore is no attribute, so that an operation under such a name can be
invoked and not called through it.
-/

namespace ResourceGraph

open ResourceGraph.Graph

namespace Act

variable {g : Graph} {id : ResourceId} {name : String}

/-- To read a name that starts with an underscore changes nothing. -/
theorem readAttribute_underscored (underscored : name.toList.head? == some '_') (id : ResourceId)
    (g : Graph) :
    (runIn (readAttribute id name) g).2 = g := by
  unfold readAttribute
  rw [runIn_bind, runIn_resource]
  cases g.resources[id]? with
  | none => rfl
  | some r =>
    dsimp only [Option.elim]
    split
    case h_1 | h_2 =>
      rw [runIn_bind, runIn_client]
      cases g.clients[r.client]? with
      | none => rfl
      | some c => cases c <;> rfl
    case h_3 => simp at underscored
    case h_15 =>
      rw [if_pos underscored]
      rfl
    all_goals rfl

/-- A name that starts with an underscore stands for what the resource holds already, or for
nothing, and never for an operation. -/
theorem not_operation_of_underscored (underscored : name.toList.head? == some '_') (id : ResourceId)
    (g : Graph)
    (o : Operation) : (runIn (readAttribute id name) g).1 ≠ .ok (.operation o) := by
  intro stands
  have ran : runIn (readAttribute id name) g = (.ok (.operation o), g) :=
    Prod.ext stands (readAttribute_underscored underscored id g)
  have called := (called?_of_readAttribute ran).2 o rfl [] []
  unfold called? at called
  rw [if_pos underscored] at called
  split at called
  · next same => simp [same] at underscored
  · cases called

end Act

namespace Model

variable {m : Model} {c : ClientId} {g : Graph} {resources : List ResourceId}
    {enumerations : List EnumerationId}
  {id : ResourceId} {name : String} {o : Operation}

/-- To invoke an operation by its name is to call it under that name. -/
theorem runIn_callNamed_invoke (names : g.Names id name o) (unnamed : List Json) {named : Keyed Json}
    (plain : Keyed.has named "self" = false ∧ Keyed.has named "name" = false) :
    runIn (Act.callNamed id "invoke" (.str name :: unnamed) named) g =
      runIn (Act.callOperation id name o unnamed named) g := by
  obtain ⟨r, _, there, _⟩ := Act.operation_of_names names
  have free : Keyed.get? named "name" = none :=
    Option.not_isSome_iff_eq_none.mp (ne_true_of_eq_false plain.2)
  have taken : Act.invokedName (.str name :: unnamed) named = .ok (.str name, unnamed, named) := by
    unfold Act.invokedName
    rw [free]
  unfold Act.callNamed
  rw [runIn_bind_ok (runIn_readAttribute_invoke there)]
  dsimp only
  rw [taken, runIn_bind_ok (Act.runIn_liftResult _ _)]
  exact Act.runIn_invokeNamed names unnamed plain

/-- **An operation is invoked as it is called.** Let a resource of a compiled model, in any graph
that was come by, have an operation under a name. To call the operation through this name and to
invoke it by this name, with whatever arguments, give the same result or failure, make the same
calls and leave the same graph, data and references included. If the name starts with an underscore
it stands for no operation, and the operation can be invoked only. -/
theorem invoked_as_called {document : Json} {service : String} {factory : Option Nat}
    (compiled : compile document service factory = .ok m) (trail : m.Trail c g resources enumerations)
    (names : g.Names id name o) :
    (¬ name.toList.head? == some '_' → ∀ unnamed named,
      Keyed.has named "self" = false → Keyed.has named "name" = false →
        runIn (Act.callNamed id "invoke" (.str name :: unnamed) named) g =
          runIn (Act.callNamed id name unnamed named) g) ∧
    (name.toList.head? == some '_' →
      (runIn (Act.readAttribute id name) g).2 = g ∧
      (∀ other, (runIn (Act.readAttribute id name) g).1 ≠ .ok (.operation other)) ∧
      ∀ unnamed named, Keyed.has named "self" = false → Keyed.has named "name" = false →
        runIn (Act.callNamed id "invoke" (.str name :: unnamed) named) g =
          runIn (Act.callOperation id name o unnamed named) g) := by
  refine ⟨fun plain unnamed named selfless nameless => ?_, fun underscored => ?_⟩
  · obtain ⟨formed, _⟩ := wellFormed_of_compile compiled
    obtain ⟨r, _, there, _⟩ := Act.operation_of_names names
    obtain ⟨free, unreserved⟩ := (faithful_of_trail trail).free formed there names
    have read := runIn_readAttribute_free there free unreserved plain names
    have called : runIn (Act.callNamed id name unnamed named) g =
        runIn (Act.callOperation id name o unnamed named) g := by
      unfold Act.callNamed
      rw [runIn_bind_ok read]
    rw [called, runIn_callNamed_invoke names unnamed ⟨selfless, nameless⟩]
  · refine ⟨Act.readAttribute_underscored underscored id g,
      Act.not_operation_of_underscored underscored id g, ?_⟩
    exact fun unnamed named selfless nameless =>
      runIn_callNamed_invoke names unnamed ⟨selfless, nameless⟩

/-- A document whose users can be found under a name that starts with an underscore, and seen under
a plain one. -/
def finders : Json :=
  .object [("resources", .object [("user", .object [("identifiers", .list [.str "id"]),
    ("actions", .object [
      ("_find", .object [("request", .object [("operation", .str "Find")])]),
      ("see", .object [("request", .object [("operation", .str "See")])])])])])]

/-- The model of that document. -/
def findersModel : Model where
  name := "team"
  root := { name := "team", isFrozen := true, operations := [
    ("user", ⟨.reference ⟨⟨0, "user"⟩, [.ofArgument "id"], none⟩, {}⟩)] }
  types := [("user", { name := "user", identifiers := ["id"], isFrozen := true, operations := [
    ("_find", ⟨.basic ⟨"find", []⟩, {}⟩), ("see", ⟨.basic ⟨"see", []⟩, {}⟩)] })]

private theorem compile_finders : compile finders "team" none = .ok findersModel := by decide +kernel

/-- A user of that model, of a client without replies. -/
def finder : Graph :=
  (runIn (Move.make ⟨0, "user"⟩ [.str "ann"] [] (some 0) none).act
    (Graph.ofModel findersModel [.prepared {}])).2

/-- The user is seen in either way, and is found only by invoking. -/
theorem invoked_as_called_finders : compile finders "team" none = .ok findersModel ∧
    findersModel.Trail 0 finder [] [] ∧
    runIn (Act.callNamed 0 "invoke" [.str "see"] [("Id", .int 1)]) finder =
      runIn (Act.callNamed 0 "see" [] [("Id", .int 1)]) finder ∧
    (runIn (Act.readAttribute 0 "_find") finder).2 = finder := by
  have trail : findersModel.Trail 0 finder [] [] := .moved (.opened _) _
  have sees : finder.Names 0 "see" ⟨.basic ⟨"see", []⟩, {}⟩ := ⟨_, _, rfl, rfl, by decide⟩
  have finds : finder.Names 0 "_find" ⟨.basic ⟨"find", []⟩, {}⟩ := ⟨_, _, rfl, rfl, by decide⟩
  have seen := (invoked_as_called compile_finders trail sees).1 (by decide) [] [("Id", .int 1)] rfl rfl
  have found := (invoked_as_called compile_finders trail finds).2 (by decide)
  exact ⟨compile_finders, trail, seen, found.1⟩

/-- To call what is under a name that starts with an underscore fails without a call of the client,
and to invoke it calls the client. -/
theorem underscored_uncalled : compile finders "team" none = .ok findersModel ∧
    (runIn (Act.callNamed 0 "_find" [] []) finder).1 = .error (.misuse .unknownAttribute) ∧
    (runIn (Act.callNamed 0 "_find" [] []) finder).2.exchanges = #[] ∧
    (runIn (Act.callNamed 0 "invoke" [.str "_find"] []) finder).1 =
      .ok (.response ⟨.null, .shared ⟨0⟩⟩) ∧
    (runIn (Act.callNamed 0 "invoke" [.str "_find"] []) finder).2.exchanges =
      #[.call 0 "find" (.object [])] := by
  refine ⟨compile_finders, ?_, ?_, ?_, ?_⟩ <;> decide +kernel

end Model

end ResourceGraph
