import ResourceGraph.Proofs.Referring

/-!
References that are remembered. A reference without an argument is built until that succeeds for the
first time; from then on the result is given to all who ask for it, and nothing is called or changed
for them. What is kept depends on nothing but the answers that the reference gave: neither other
references nor anything else that happens to the graph has a part in it. A reference with an
argument is never kept.
-/

namespace ResourceGraph

open ResourceGraph.Graph

/-- Something that happens to a graph: a move, or the clients become any others, so that they may
reply whatever they like. -/
inductive Happening
  | moved (move : Move)
  | served (clients : Array Client)

/-- The name of a resource that a move asks for, without giving anything. -/
def Move.asked? (move : Move) : Option (ResourceId × String) :=
  match move.called? with
  | some (id, name, [], []) => some (id, name)
  | _ => none

/-- What a move gives to whoever makes it, if it is a call. -/
def Move.giving : Move → Act (Option Outcome)
  | .call id name unnamed named => do return some (← Act.callNamed id name unnamed named)
  | move => do
    move.act
    return none

/-- What was built, if the answer to a call is that. -/
def built? : Except Failure (Option Outcome) → Option Built
  | .ok (some (.built b)) => some b
  | _ => none

/-- What was built first, of what is given one after another. -/
def firstBuilt (answers : List (Except Failure (Option Outcome))) : Option Built :=
  answers.findSome? built?

namespace Graph

/-- What a happening leads to. -/
def led (g : Graph) : Happening → Graph
  | .moved move => (runIn move.act g).2
  | .served clients => { g with clients }

/-- What happenings lead to, one after another. -/
def afterAll (g : Graph) (run : List Happening) : Graph := run.foldl led g

/-- What those are given, one after another, who ask a resource for what is under a name, without an
argument. -/
def answers (id : ResourceId) (name : String) :
    List Happening → Graph → List (Except Failure (Option Outcome))
  | [], _ => []
  | x :: rest, g =>
    let others := answers id name rest (g.led x)
    match x with
    | .moved move => if move.asked? = some (id, name) then (runIn move.giving g).1 :: others else others
    | .served _ => others

/-- What is kept of the reference that a resource has under a name. -/
def kept (g : Graph) (id : ResourceId) (name : String) : Option Built :=
  (g.resources[id]?).bind fun r => Keyed.get? r.references name

/-- The graph where a resource keeps what was built for a reference. -/
def keep (g : Graph) (id : ResourceId) (name : String) (built : Built) : Graph :=
  { g with resources := g.resources.modify id fun r =>
    { r with references := Keyed.put r.references name built } }

/-- The resource has the reference under the name, which nothing else of it goes by. It has none in
this sense if its type was shaped by hand and took an identifier of the operation's name after the
operation. -/
structure Offers (g : Graph) (id : ResourceId) (name : String) (b : Builder) : Prop where
  reference : ∃ r type o, g.resources[id]? = some r ∧ g.types[r.type.index]? = some type ∧
    Keyed.get? type.operations name = some o ∧ o.work = .reference b ∧
      Keyed.get? r.identifiers name = none
  unreserved : name ∉ reservedNames

/-- Nothing that is kept changed. -/
def Still (g h : Graph) : Prop := ∀ id name, h.kept id name = g.kept id name

variable {g h : Graph} {id : ResourceId} {name : String} {b : Builder} {o : Operation}

/-! ## What is kept -/

private theorem kept_of_there {r : Resource} (there : g.resources[id]? = some r) :
    g.kept id name = Keyed.get? r.references name := by
  unfold kept
  rw [there]
  rfl

private theorem kept_keep (there : ∃ r, g.resources[id]? = some r) (built : Built) :
    (g.keep id name built).kept id name = some built := by
  obtain ⟨r, there⟩ := there
  have after : (g.keep id name built).resources[id]? =
      some { r with references := Keyed.put r.references name built } := by
    change (g.resources.modify id _)[id]? = _
    rw [Array.getElem?_modify, if_pos rfl, there]
    rfl
  rw [kept_of_there after]
  exact Keyed.get?_put_self _ _ _

/-- To keep one reference leaves what is kept of the others. -/
theorem kept_keep_other {other : ResourceId} {another : String} (apart : (other, another) ≠ (id, name))
    (built : Built) : (g.keep id name built).kept other another = g.kept other another := by
  unfold kept
  change ((g.resources.modify id _)[other]?).bind _ = _
  rw [Array.getElem?_modify]
  split
  · next same =>
    subst same
    have different : another ≠ name := fun equal => apart (by rw [equal])
    cases g.resources[id]? with
    | none => rfl
    | some r => exact Keyed.get?_put_of_ne _ _ different
  · rfl

private theorem still_lasting : Lasting Still where
  refl _ _ _ := rfl
  trans first second id name := (second id name).trans (first id name)

theorem Still.of_resources (same : h.resources = g.resources) : Still g h := by
  intro id name
  unfold kept
  rw [same]

/-- Whatever is done, nothing that is kept changes, but that a resource keeps a reference. -/
theorem handling_still : Act.Handling Still where
  lasting := still_lasting
  store _ _ _ := .of_resources rfl
  calls _ _ calls := .of_resources calls.resources
  sets g id data := by
    intro other name
    unfold kept
    change ((g.resources.modify id _)[other]?).bind _ = _
    rw [Array.getElem?_modify]
    split
    · cases g.resources[other]? <;> rfl
    · rfl
  adds g r new := by
    intro other name
    unfold kept
    change ((g.resources.push r)[other]?).bind _ = _
    rw [Array.getElem?_push]
    split
    · next last =>
      have absent : g.resources[other]? = none := by simp [last]
      rw [absent]
      simp [new.references, Keyed.get?]
    · rfl
  lists _ := .of_resources rfl
  serves _ _ := .of_resources rfl
  enumerates _ _ := .of_resources rfl

/-! ## Asking -/

theorem Offers.names (offers : g.Offers id name b) : ∃ o, g.Names id name o ∧ o.work = .reference b := by
  obtain ⟨r, type, o, there, typed, found, work, _⟩ := offers.reference
  exact ⟨o, ⟨r, type, there, typed, found⟩, work⟩

theorem Offers.there (offers : g.Offers id name b) : ∃ r, g.resources[id]? = some r := by
  obtain ⟨r, _, _, there, _⟩ := offers.reference
  exact ⟨r, there⟩

/-- A reference stays, whatever is done with the graph. -/
theorem Offers.refers (offers : g.Offers id name b) (refers : g.Refers h) : h.Offers id name b := by
  obtain ⟨r, type, o, there, typed, found, work, free⟩ := offers.reference
  obtain ⟨s, still, remains⟩ := refers.resources id r there
  refine ⟨⟨s, type, o, still, ?_, found, work, ?_⟩, offers.unreserved⟩
  · rw [refers.types, remains.type]
    exact typed
  · rw [remains.identifiers]
    exact free

/-- An operation of a resource of a well-formed model is under a name that nothing else of it goes
by. -/
theorem Faithful.free {m : Model} (formed : m.WellFormed) (faithful : g.Faithful m) {r : Resource}
    (there : g.resources[id]? = some r) (names : g.Names id name o) :
    Keyed.get? r.identifiers name = none ∧ name ∉ reservedNames := by
  obtain ⟨r', type, there', typed, found⟩ := names
  cases there.symm.trans there'
  have own : type = m.root ∨ ∃ entry ∈ m.types, entry.2 = type := by
    rw [faithful.types] at typed
    have member : type ∈ m.types.map Prod.snd ++ [m.root] := by
      refine List.mem_of_getElem? (i := r.type.index) ?_
      simpa [Graph.ofModel] using typed
    rcases List.mem_append.mp member with listed | last
    · exact .inr (List.mem_map.mp listed)
    · exact .inl (List.mem_singleton.mp last)
  have apart : type.NamesApart := by
    rcases own with rfl | ⟨entry, member, rfl⟩
    · exact formed.root.names
    · exact (formed.types entry member).names
  have free := apart.free name (List.mem_map.mpr ⟨_, Keyed.mem_of_get? found, rfl⟩)
  obtain ⟨given, identified⟩ := faithful.made id r there
  rw [typed, Option.getD_some] at identified
  have keys := Act.keys_of_identify identified
  exact ⟨Keyed.get?_eq_none_iff.mpr (keys ▸ free.1), free.2⟩

/-- A reference of a resource of a well-formed model is under a name that nothing else of it goes
by. -/
theorem Faithful.offers {m : Model} (formed : m.WellFormed) (faithful : g.Faithful m)
    (names : g.Names id name o)
    (work : o.work = .reference b) : g.Offers id name b := by
  obtain ⟨r, type, there, typed, found⟩ := names
  obtain ⟨free, unreserved⟩ := faithful.free formed there ⟨r, type, there, typed, found⟩
  exact ⟨⟨r, type, o, there, typed, found, work, free⟩, unreserved⟩

theorem refers_led (g : Graph) (x : Happening) : g.Refers (g.led x) := by
  cases x with
  | moved move => exact using_refers.moves move g
  | served clients => exact using_refers.serves g clients

private theorem refers_afterAll (g : Graph) (run : List Happening) : g.Refers (g.afterAll run) := by
  induction run generalizing g with
  | nil => exact refers_lasting.refl g
  | cons x rest ih => exact refers_lasting.trans (refers_led g x) (ih (g.led x))

/-- A name that nothing else goes by stands for the operation. -/
theorem runIn_readAttribute_free {r : Resource} (there : g.resources[id]? = some r)
    (free : Keyed.get? r.identifiers name = none) (unreserved : name ∉ reservedNames)
    (plain : ¬ name.toList.head? == some '_') (names : g.Names id name o) :
    runIn (Act.readAttribute id name) g = (.ok (.operation o), g) := by
  obtain ⟨r', type, there', resourced, typed, found⟩ := Act.operation_of_names names
  cases there.symm.trans there'
  unfold Act.readAttribute
  rw [runIn_bind_ok resourced]
  -- Every other name is reserved, or starts with an underscore.
  split
  case h_15 =>
    rw [if_neg plain, free]
    dsimp only
    rw [runIn_bind_ok typed, found, runIn_bind_ok (Act.runIn_liftResult _ _)]
    rfl
  all_goals
    exfalso
    first
    | apply unreserved; decide
    | apply plain; decide

/-- What every resource can be invoked by is there. -/
theorem runIn_readAttribute_invoke {r : Resource} (there : g.resources[id]? = some r) :
    runIn (Act.readAttribute id "invoke") g = (.ok .invoke, g) := by
  have resourced : runIn (Act.resource id) g = (.ok r, g) := Act.resource_runs there
  unfold Act.readAttribute
  rw [runIn_bind_ok resourced]
  rfl

/-- A call that comes to the operation under a name is a call of it, whichever way it is made. -/
theorem runIn_giving {move : Move} {unnamed : List Json} {named : Keyed Json}
    (offers : g.Offers id name b) (names : g.Names id name o)
    (called : move.called? = some (id, name, unnamed, named))
    (plain : Keyed.has named "self" = false ∧ Keyed.has named "name" = false) :
    runIn move.giving g = runIn (some <$> Act.callOperation id name o unnamed named) g := by
  obtain ⟨r, _, _, there, _, _, _, free⟩ := offers.reference
  cases move with
  | call caller word given others =>
    simp only [Move.called?, Option.map_eq_some_iff, Prod.mk.injEq] at called
    obtain ⟨_, called, rfl, rfl, rfl, rfl⟩ := called
    have same : runIn (Act.callNamed caller word given others) g =
        runIn (Act.callOperation caller name o unnamed named) g := by
      unfold Act.called? at called
      split at called
      · next invokes =>
        subst invokes
        split at called
        · next taken =>
          cases called
          unfold Act.callNamed
          rw [runIn_bind_ok (runIn_readAttribute_invoke there)]
          dsimp only
          rw [taken, runIn_bind_ok (Act.runIn_liftResult _ _)]
          exact Act.runIn_invokeNamed names _ plain
        · cases called
      · split at called
        · cases called
        · next underscored =>
          cases called
          unfold Act.callNamed
          rw [runIn_bind_ok (runIn_readAttribute_free there free offers.unreserved underscored names)]
    unfold Move.giving
    rw [runIn_map, runIn_bind, same]
    rcases runIn (Act.callOperation caller name o unnamed named) g with ⟨f | outcome, h⟩ <;> rfl
  | _ => cases called

private theorem asked?_iff {move : Move} :
    move.asked? = some (id, name) ↔ move.called? = some (id, name, [], []) := by
  unfold Move.asked?
  constructor
  · intro asked
    split at asked
    · next called =>
      cases asked
      exact called
    · cases asked
  · intro called
    rw [called]

/-- To ask for a reference without an argument gives what is kept of it, or is built for it. -/
theorem runIn_asked {move : Move} (offers : g.Offers id name b) (bare : b.requiresArgument = false)
    (asked : move.asked? = some (id, name)) :
    runIn move.giving g = runIn ((some ∘ Outcome.built) <$> Act.keptReference id name b) g := by
  obtain ⟨o, names, work⟩ := offers.names
  rw [runIn_giving offers names (asked?_iff.mp asked) ⟨rfl, rfl⟩]
  unfold Act.callOperation
  rw [work]
  dsimp only
  rw [if_neg (by simp [bare]), if_pos (by rfl), runIn_map, runIn_map, runIn_bind]
  rcases runIn (Act.keptReference id name b) g with ⟨f | built, h⟩ <;> rfl

/-- The argument of a reference that takes one is received, and it is built from that. -/
theorem runIn_given {move : Move} {unnamed : List Json} {named : Keyed Json} {given : Json}
    (offers : g.Offers id name b) (requires : b.requiresArgument = true)
    (called : move.called? = some (id, name, unnamed, named))
    (taken : Act.callArgument unnamed named = .ok given) :
    runIn move.giving g = runIn (do
      let argument ← Act.receive given
      return some (.built (← Act.build b { caller := some id, argument }))) g := by
  obtain ⟨o, names, work⟩ := offers.names
  have plain : Keyed.has named "self" = false ∧ Keyed.has named "name" = false := by
    unfold Act.callArgument at taken
    split at taken
    · exact ⟨rfl, rfl⟩
    · exact ⟨rfl, rfl⟩
    · cases taken
  rw [runIn_giving offers names called plain]
  unfold Act.callOperation
  rw [work]
  dsimp only
  rw [if_pos requires, taken, runIn_map, runIn_bind_ok (Act.runIn_liftResult _ _),
    runIn_bind, runIn_bind]
  rcases runIn (Act.receive given) g with ⟨f | argument, mid⟩
  · rfl
  · dsimp only
    rw [runIn_bind, runIn_bind]
    rcases runIn (Act.build b { caller := some id, argument }) mid with ⟨f | built, h⟩ <;> rfl

/-! ## Answering -/

/-- What is kept is given, and nothing is called or changed. -/
theorem runIn_keptReference_kept {built : Built} (remembered : g.kept id name = some built) :
    runIn (Act.keptReference id name b) g = (.ok built, g) := by
  obtain ⟨r, there, found⟩ := Option.bind_eq_some_iff.mp remembered
  have resourced : runIn (Act.resource id) g = (.ok r, g) := Act.resource_runs there
  unfold Act.keptReference
  rw [runIn_bind_ok resourced, found]
  rfl

/-- What is not kept is built, and kept if that succeeds. -/
theorem runIn_keptReference_unkept (there : ∃ r, g.resources[id]? = some r)
    (fresh : g.kept id name = none) :
    runIn (Act.keptReference id name b) g =
      match runIn (Act.build b { caller := some id }) g with
      | (.error f, mid) => (.error f, mid)
      | (.ok built, mid) => (.ok built, mid.keep id name built) := by
  obtain ⟨r, there⟩ := there
  have resourced : runIn (Act.resource id) g = (.ok r, g) := Act.resource_runs there
  unfold Act.keptReference
  rw [runIn_bind_ok resourced, ← kept_of_there there, fresh]
  dsimp only
  rw [runIn_bind]
  rcases runIn (Act.build b { caller := some id }) g with ⟨f | built, mid⟩ <;> rfl

private theorem kept_keptReference_other {other : ResourceId} {another : String}
    (apart : (other, another) ≠ (id, name)) :
    (runIn (Act.keptReference id name b) g).2.kept other another = g.kept other another := by
  have still := handling_still.builds b { caller := some id } g
  cases there : g.resources[id]? with
  | none =>
    unfold Act.keptReference
    rw [runIn_bind, Act.runIn_resource, there]
    rfl
  | some r =>
    cases remembered : g.kept id name with
    | some built => rw [runIn_keptReference_kept remembered]
    | none =>
      rw [runIn_keptReference_unkept ⟨r, there⟩ remembered]
      rcases ran : runIn (Act.build b { caller := some id }) g with
        ⟨f | built, mid⟩ <;> rw [ran] at still
      · exact still other another
      · exact (kept_keep_other apart built).trans (still other another)

/-- A move leaves what is kept of a reference, unless it asks for it and the reference takes no
argument. -/
theorem kept_move {move : Move} (offers : g.Offers id name b)
    (other : b.requiresArgument = false → move.asked? ≠ some (id, name)) :
    (runIn move.act g).2.kept id name = g.kept id name := by
  have alike : Act.Handling fun g h => h.kept id name = g.kept id name :=
    { handling_still with
      lasting := ⟨fun _ => rfl, fun first second => second.trans first⟩
      store := fun g s learns => handling_still.store g s learns id name
      calls := fun g h calls => handling_still.calls g h calls id name
      sets := fun g x data => handling_still.sets g x data id name
      adds := fun g r new => handling_still.adds g r new id name
      lists := fun g => handling_still.lists g id name
      serves := fun g clients => handling_still.serves g clients id name
      enumerates := fun g enumerations => handling_still.enumerates g enumerations id name }
  refine alike.moves fun caller word o b' called names work bare => ?_
  by_cases same : (id, name) = (caller, word)
  · cases same
    obtain ⟨o', names', work'⟩ := offers.names
    cases Names.unique names names'
    cases work.symm.trans work'
    exact absurd (asked?_iff.mpr called) (other bare)
  · exact kept_keptReference_other same

private theorem runIn_act_giving (move : Move) (g : Graph) :
    (runIn move.act g).2 = (runIn move.giving g).2 := by
  cases move with
  | call id name unnamed named =>
    unfold Move.act Move.giving
    rw [runIn_bind, runIn_bind]
    rcases runIn (Act.callNamed id name unnamed named) g with ⟨f | outcome, h⟩ <;> rfl
  | _ =>
    unfold Move.giving
    rw [runIn_bind]
    rcases runIn (Move.act _) g with ⟨f | outcome, h⟩ <;> rfl

/-- How one who asks is answered: with what is kept, or with what was just built, which is kept from
then on. -/
theorem kept_asked {move : Move} (offers : g.Offers id name b) (bare : b.requiresArgument = false)
    (asked : move.asked? = some (id, name)) :
    (runIn move.act g).2.kept id name = (g.kept id name).or (built? (runIn move.giving g).1) := by
  rw [runIn_act_giving, runIn_asked offers bare asked, runIn_map]
  cases remembered : g.kept id name with
  | some built =>
    rw [runIn_keptReference_kept remembered]
    exact remembered
  | none =>
    have builds := using_refers.builds b { caller := some id } g
    have still := handling_still.builds b { caller := some id } g
    rw [runIn_keptReference_unkept offers.there remembered]
    rcases ran : runIn (Act.build b { caller := some id }) g with
      ⟨f | built, mid⟩ <;> rw [ran] at builds still
    · exact (still id name).trans remembered
    · exact kept_keep (offers.refers builds).there built

/-- After whatever happened, that is kept of a reference which was kept before, or else what it came
to first. -/
theorem kept_afterAll (offers : g.Offers id name b) (bare : b.requiresArgument = false)
    (run : List Happening) :
    (g.afterAll run).kept id name = (g.kept id name).or (firstBuilt (answers id name run g)) := by
  induction run generalizing g with
  | nil => simp [afterAll, answers, firstBuilt]
  | cons x rest ih =>
    have rested := ih (offers.refers (refers_led g x))
    change ((g.led x).afterAll rest).kept id name = _
    rw [rested]
    cases x with
    | served clients => rfl
    | moved move =>
      change ((runIn move.act g).2.kept id name).or
        (firstBuilt (answers id name rest (runIn move.act g).2)) =
        (g.kept id name).or (firstBuilt (if move.asked? = some (id, name) then
          (runIn move.giving g).1 :: answers id name rest (runIn move.act g).2
          else answers id name rest (runIn move.act g).2))
      by_cases asked : move.asked? = some (id, name)
      · rw [if_pos asked, kept_asked offers bare asked, Option.or_assoc]
        congr 1
        unfold firstBuilt
        rw [List.findSome?_cons]
        cases built? (runIn move.giving g).1 <;> simp
      · rw [if_neg asked, kept_move offers fun _ => asked]

private theorem kept_afterAll_given (offers : g.Offers id name b) (requires : b.requiresArgument = true)
    (run : List Happening) : (g.afterAll run).kept id name = g.kept id name := by
  induction run generalizing g with
  | nil => rfl
  | cons x rest ih =>
    refine (ih (offers.refers (refers_led g x))).trans ?_
    cases x with
    | served clients => rfl
    | moved move => exact kept_move offers fun bare => by simp [requires] at bare

/-- The law of references, after whatever happened. What is kept of one without an argument is what
was kept before, or else what those who asked for it were given first; those who ask are given that,
and nothing is called or changed. If nothing is kept, it is built, and kept if that succeeds. One
with an argument is never kept, but is built from what is given each time.

A resource that offers the reference has no identifier of its name. This leaves out types shaped by
hand whose identifier later took the operation's name, as attributes give the identifier then; the
references of a model that was compiled are all offered, by `Faithful.offers`. -/
theorem references_remembered (offers : g.Offers id name b) (run : List Happening) :
    let h := g.afterAll run
    (b.requiresArgument = false →
      h.kept id name = (g.kept id name).or (firstBuilt (answers id name run g)) ∧
      ∀ move : Move, move.asked? = some (id, name) →
        (∀ built, h.kept id name = some built → runIn move.giving h = (.ok (some (.built built)), h)) ∧
        (h.kept id name = none → runIn move.giving h =
          match runIn (Act.build b { caller := some id }) h with
          | (.error f, mid) => (.error f, mid)
          | (.ok built, mid) => (.ok (some (.built built)), mid.keep id name built))) ∧
    (b.requiresArgument = true →
      h.kept id name = g.kept id name ∧
      ∀ (move : Move) unnamed named given, move.called? = some (id, name, unnamed, named) →
        Act.callArgument unnamed named = .ok given →
          runIn move.giving h = runIn (do
            let argument ← Act.receive given
            return some (.built (← Act.build b { caller := some id, argument }))) h) := by
  intro h
  have offered : h.Offers id name b := offers.refers (refers_afterAll g run)
  refine ⟨fun bare => ⟨kept_afterAll offers bare run,
    fun move asked => ⟨fun built remembered => ?_, fun fresh => ?_⟩⟩,
    fun requires =>
      ⟨kept_afterAll_given offers requires run, fun move unnamed named given called taken => ?_⟩⟩
  · rw [runIn_asked offered bare asked, runIn_map, runIn_keptReference_kept remembered]
    rfl
  · rw [runIn_asked offered bare asked, runIn_map, runIn_keptReference_unkept offered.there fresh]
    rcases runIn (Act.build b { caller := some id }) h with ⟨f | built, mid⟩ <;> rfl
  · exact runIn_given offered requires called taken

/-- The manager of a user, whose name is the data. -/
def managing : Builder := ⟨⟨0, "User"⟩, [⟨.dataMember, "$", "name"⟩], none⟩

/-- A user, of a client that fails every call. -/
def staff : Graph where
  types := #[{
    name := "User", identifiers := ["name"], operations := [("manager", ⟨.reference managing, {}⟩)]
    load := some ⟨.load ⟨"Get", []⟩ "$", {}⟩ }]
  clients := #[.prepared { calls := [("Get", [⟨.failure "down", none⟩])] }]
  resources := #[{ type := ⟨0, "User"⟩, identifiers := [("name", .str "ann")], client := 0 }]

private theorem staff_offers : staff.Offers 0 "manager" managing :=
  ⟨⟨_, _, _, rfl, rfl, rfl, rfl, rfl⟩, by decide⟩

/-- The manager is asked for, and the data cannot be loaded; it is asked for again, and then the
data changes. -/
def promotions : List Happening := [
  .moved (.call 0 "manager" [] []),
  .moved (.assign 0 (.str "bob")),
  .moved (.call 0 "manager" [] []),
  .moved (.assign 0 (.str "eve"))]

/-- Who asks again is given the manager that was built first. -/
theorem references_remembered_manager :
    let h := staff.afterAll promotions
    h.kept 0 "manager" = some (.one 1) ∧
      runIn (Move.giving (.call 0 "invoke" [.str "manager"] [])) h =
        (.ok (some (.built (.one 1))), h) := by
  have law := (references_remembered staff_offers promotions).1 rfl
  have first : (staff.kept 0 "manager").or (firstBuilt (answers 0 "manager" promotions staff)) =
      some (.one 1) := by
    decide +kernel
  have remembered := law.1.trans first
  exact ⟨remembered, (law.2 (.call 0 "invoke" [.str "manager"] []) rfl).1 _ remembered⟩

end Graph

end ResourceGraph
