import ResourceGraph.Proofs.Invoking

/-!
Which failures blame the rules of a definition: faults of the definition itself, and identifiers
that are looked up and not there. Calls of a client, making resources and going through data never
fail in this way. Building parameters does so only when the path of a projection cannot be read, as
long as its request and the load requests of its type read declared identifiers.
-/

namespace ResourceGraph

open ResourceGraph.Graph Store

/-- The failure blames the rules: it is a definition fault, or an identifier was looked up in vain. -/
def Failure.BlamesRules : Failure → Prop
  | .definition _ | .misuse .missingKey => True
  | _ => False

/-- The failure blames the rules, or is that an argument is missing, which none but a builder asks
for. -/
def Failure.BlamesUse : Failure → Prop
  | .definition _ | .misuse .missingKey | .missingArgument _ => True
  | _ => False

theorem Failure.BlamesRules.blamesUse {f : Failure} (blames : f.BlamesRules) : f.BlamesUse := by
  unfold BlamesRules at blames
  split at blames
  · trivial
  · trivial
  · exact blames.elim

/-- The projection reads a part of the data whose path cannot be read, and fails in this way. -/
def Projection.Unreadable (p : Projection) (f : Failure) : Prop :=
  ∃ given, p.source = .dataMember given ∧ (Act.pathText given = .error f ∨
    ∃ text, Act.pathText given = .ok text ∧ text ≠ Path.whole ∧ Path.compile text = .error f)

/-- Failures of a kind: those that do not blame the rules, and perhaps others. -/
def Excuses (E : Failure → Prop) : Prop := ∀ f, ¬ f.BlamesRules → E f

/-- A computation that never blames the rules, nor asks for an argument. -/
abbrev Harmless {σ α : Type} (x : ExceptT Failure (StateM σ) α) : Prop :=
  Fails (fun _ => True) (fun f => ¬ f.BlamesUse) x

namespace Harmless

variable {σ α β : Type} {x : ExceptT Failure (StateM σ) α} {f : α → ExceptT Failure (StateM σ) β}

theorem seq (first : Harmless x) (rest : ∀ a, Harmless (f a)) : Harmless (x >>= f) :=
  .bind first (fun _ _ => trivial) rest

theorem fails {I : σ → Prop} {E : Failure → Prop} (excuses : Excuses E) (harmless : Harmless x) :
    Fails I E x :=
  fun s e t _ ran => excuses e fun blames => harmless s e t trivial ran blames.blamesUse

end Harmless

namespace Act

variable {α β : Type} {kind : Exchange → Prop} {g h : Graph}

/-! ## Calls -/

theorem harmless_lift {result : Except Failure α} (each : ∀ f, result = .error f → ¬ f.BlamesUse) :
    Harmless (lift result) := by
  intro g f h _ ran
  rw [runIn_liftResult] at ran
  cases ran
  exact each f rfl

theorem harmless_fail {f : Failure} (harmless : ¬ f.BlamesUse) : Harmless (fail f : Act α) :=
  .throw harmless

theorem harmless_onStore (change : StateM Store α) : Harmless (onStore change) := by
  intro g f h _ ran
  cases ran

theorem harmless_receive (given : Json) : Harmless (receive given) := harmless_onStore _

theorem harmless_opened (v : Datum) : Harmless (opened v) := by
  intro g f h _ ran
  cases ran

theorem harmless_note (x : Exchange) : Harmless (note x) := by
  intro g f h _ ran
  cases ran

private theorem harmless_replaceClient (id : ClientId) (c : Client) : Harmless (replaceClient id c) := by
  intro g f h _ ran
  cases ran

theorem harmless_tree (v : Datum) : Harmless (tree v) := by
  refine .seq .get fun g => ?_
  split
  · exact .pure _
  · exact .throw id

theorem harmless_resource (id : ResourceId) : Harmless (resource id) := by
  refine .seq .get fun g => ?_
  split
  · exact .pure _
  · exact harmless_fail not_false

theorem harmless_client (id : ClientId) : Harmless (client id) := by
  refine .seq .get fun g => ?_
  split
  · exact .pure _
  · exact harmless_fail not_false

theorem harmless_callerOf (context : Context) : Harmless (callerOf context) := by
  unfold callerOf
  split
  · exact harmless_resource _
  · exact harmless_fail not_false

theorem entriesFailure_harmless (fault : Value.EntriesFault) : ¬ (entriesFailure fault).BlamesUse := by
  cases fault <;> exact not_false

theorem harmless_entriesOf (v : Datum) : Harmless (entriesOf v) := by
  refine .seq .get fun g => ?_
  split
  · exact .pure _
  · exact .throw (entriesFailure_harmless _)

private theorem harmless_sentTree (named : Keyed Datum) (others : List (Datum × Datum)) :
    Harmless (sentTree named others) := by
  unfold sentTree
  split
  · exact .pure _
  · exact .seq (harmless_tree _) fun _ => .pure _

private theorem harmless_answered (r : Reply) (params data : Datum) :
    Harmless (answered r params data) := by
  unfold answered
  split
  · exact .pure _
  · exact .seq (harmless_receive _) fun _ => .pure _

theorem harmless_respond (reply : Option Reply) (params : Datum) : Harmless (respond reply params) := by
  unfold respond
  split
  · exact .pure _
  · next r =>
    dsimp only
    split
    · exact .seq (harmless_fail not_false) (harmless_answered r params)
    · exact .seq (harmless_onStore _) (harmless_answered r params)
    · exact .seq (harmless_receive _) (harmless_answered r params)

private theorem readBody_harmless {body : String} {f : Failure}
    (failed : Json.readBody body = .error f) :
    ¬ f.BlamesUse := by
  unfold Json.readBody at failed
  split at failed
  · cases failed
    exact not_false
  · split at failed
    · cases failed
    · cases failed
      exact not_false

private theorem httpRead_harmless {method : String} {reply : HttpReply} {f : Failure}
    (failed : reply.read method = .error f) : ¬ f.BlamesUse := by
  unfold HttpReply.read at failed
  split at failed
  · cases failed
    exact not_false
  · dsimp only at failed
    split at failed
    · cases failed
      exact not_false
    · split at failed
      · cases failed
      · split at failed
        · cases failed
        · next body fault unread =>
          cases failed
          exact readBody_harmless unread

private theorem address_harmless {c : HttpClient} {route : Route} {text : α → Option String}
    {params : Keyed α}
    {f : Failure} (failed : c.address route text params = .error f) : ¬ f.BlamesUse := by
  unfold HttpClient.address at failed
  split at failed
  · cases failed
    exact not_false
  · cases failed
    exact not_false
  · cases failed

theorem route_harmless {c : HttpClient} {method : String} {f : Failure}
    (failed : c.route method = .error f) : ¬ f.BlamesUse := by
  unfold HttpClient.route at failed
  split at failed
  · cases failed
  · cases failed
    exact not_false

theorem harmless_send (id : ClientId) (c : HttpClient) (method : String) (route : Route)
    (params : Datum) : Harmless (send id c method route params) := by
  refine .seq (harmless_entriesOf params) fun entries => .seq .get fun g => ?_
  refine .seq (harmless_lift fun f => address_harmless) fun addressed => ?_
  refine .seq (harmless_sentTree _ _) fun sent => .seq (harmless_note _) fun _ => ?_
  split
  · exact harmless_fail not_false
  · refine .seq (harmless_replaceClient _ _) fun _ => ?_
    refine .seq (harmless_lift fun f => httpRead_harmless) fun data => ?_
    exact .seq (harmless_receive data) fun _ => .pure _

/-- A call fails because of the client or of what is sent, never because of the rules. -/
theorem harmless_call (id : ClientId) (method : String) (params : Datum) :
    Harmless (call id method params) := by
  refine .seq (harmless_client id) fun c => ?_
  split
  · refine .seq (harmless_tree params) fun sent => .seq (harmless_note _) fun _ => ?_
    exact .seq (harmless_replaceClient _ _) fun _ => harmless_respond _ _
  · exact .seq (harmless_lift fun f => route_harmless) fun route => harmless_send _ _ _ _ _
  · exact harmless_fail not_false

/-! ## Making resources -/

theorem placed_harmless {t : ResourceType} {unnamed : List Datum} {named : Keyed Datum} {f : Failure}
    (failed : t.placed unnamed named = .error f) : ¬ f.BlamesUse := by
  unfold ResourceType.placed at failed
  split at failed
  · cases failed
    exact not_false
  · split at failed
    · cases failed
    · split at failed
      · split at failed
        · cases failed
          exact not_false
        · cases failed
      · cases failed
        exact not_false

private theorem valueFor_harmless {t : ResourceType} {given : Keyed Datum} {name : String} {f : Failure}
    (failed : t.valueFor given name = .error f) : ¬ f.BlamesUse := by
  unfold ResourceType.valueFor at failed
  split at failed
  · cases failed
    exact not_false
  · cases failed
    exact not_false
  · cases failed

private theorem identify_harmless {t : ResourceType} {given : Keyed Datum} {f : Failure}
    (failed : t.identify given = .error f) : ¬ f.BlamesUse := by
  unfold ResourceType.identify at failed
  dsimp only at failed
  split at failed
  · cases failed
    exact not_false
  · split at failed
    · cases failed
      exact not_false
    · obtain ⟨name, _, unvalued⟩ := Outcome.error_of_mapM failed
      exact valueFor_harmless unvalued

private theorem clientFor_harmless {t : ResourceType} {given : Option ClientId} {f : Failure}
    (failed : t.clientFor given = .error f) : ¬ f.BlamesUse := by
  unfold ResourceType.clientFor at failed
  split at failed
  · cases failed
  · cases failed
  · cases failed
    exact not_false

theorem harmless_typeOf (ref : TypeRef) : Harmless (typeOf ref) := by
  intro g f h _ ran
  cases ran

theorem harmless_makeResource (ref : TypeRef) (given : Keyed Datum) (client : Option ClientId)
    (data : Option Datum) : Harmless (makeResource ref given client data) := by
  refine .seq (harmless_typeOf ref) fun type => ?_
  refine .seq (harmless_lift fun f => identify_harmless) fun identifiers => ?_
  refine .seq (harmless_lift fun f => clientFor_harmless) fun client => ?_
  intro g f h _ ran
  cases ran

/-- Making a resource fails because of what is given, never because of the rules. -/
theorem harmless_construct (ref : TypeRef) (unnamed : List Datum) (named : Keyed Datum)
    (client : Option ClientId) (data : Option Datum) :
    Harmless (construct ref unnamed named client data) := by
  refine .seq (harmless_typeOf ref) fun type => ?_
  exact .seq (harmless_lift fun f => placed_harmless) fun placed => harmless_makeResource _ _ _ _

/-! ## Searching -/

/-- The text is the whole value or can be read as a path. -/
theorem harmless_search {path : String} (readable : path = Path.whole ∨ Path.Readable path) (v : Datum) :
    Harmless (search path v) := by
  intro g f h _ ran
  rw [search, runIn_inStore] at ran
  cases found : runIn (Path.search path v) g.store with
  | mk result store =>
    rw [found] at ran
    cases ran
    rcases Path.search_fails found with ⟨expression, unread⟩ | ⟨fault, rfl⟩
    · rcases readable with whole | ⟨expr, read⟩
      · exact absurd whole expression
      · rw [read] at unread
        cases unread
    · exact not_false

theorem unreadable_of_search {p : Projection} {given : Json} {text : String} {v : Datum} {f : Failure}
    (source : p.source = .dataMember given) (path : pathText given = .ok text)
    (failed : runIn (search text v) g = (.error f, h)) (blames : f.BlamesRules) : p.Unreadable f := by
  rw [search, runIn_inStore] at failed
  cases found : runIn (Path.search text v) g.store with
  | mk result store =>
    rw [found] at failed
    cases failed
    rcases Path.search_fails found with unread | ⟨fault, rfl⟩
    · exact ⟨given, source, .inr ⟨text, path, unread⟩⟩
    · exact blames.elim

/-- A projection whose path cannot be read blames the definition, if it blames the rules at all. -/
theorem definition_of_unreadable {p : Projection} {f : Failure} (unreadable : p.Unreadable f)
    (blames : f.BlamesRules) : ∃ fault, f = .definition fault := by
  obtain ⟨given, _, noText | ⟨text, _, _, unread⟩⟩ := unreadable
  · unfold pathText at noText
    split at noText
    · cases noText
    · cases noText
      exact blames.elim
    · cases noText
      exact blames.elim
    · simp only [Except.error.injEq] at noText
      split at noText
      · exact ⟨_, noText.symm⟩
      · rw [← noText] at blames
        exact blames.elim
  · unfold Path.compile at unread
    split at unread
    · cases unread
    · cases unread
      exact ⟨_, rfl⟩
    · cases unread
      exact blames.elim
    · cases unread
      exact blames.elim

end Act

end ResourceGraph
