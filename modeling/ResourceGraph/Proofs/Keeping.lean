import ResourceGraph.Proofs.Drawing
import ResourceGraph.Proofs.Lineage

/-!
What all uses of a graph keep. A relation that allows what loading and building do, what is noted of
clients and of enumerations, and that a resource keeps one of its references, allows every move on a
graph. One such relation follows the references: types stay, resources remain what they are, each of
them is made by its type, and a reference that is kept and draws from identifiers alone is to a
resource that has what it draws.
-/

namespace ResourceGraph

open ResourceGraph.Graph Store

/-- The operation that the call of a name comes to, with what it is given: the one under the name,
or the one that is invoked. A name that starts with an underscore stands for none. -/
def Act.called? (name : String) (unnamed : List Json) (named : Keyed Json) :
    Option (String × List Json × Keyed Json) :=
  if name = "invoke" then
    match invokedName unnamed named with
    | .ok (.str other, rest, others) => some (other, rest, others)
    | _ => none
  else if name.toList.head? == some '_' then none
  else some (name, unnamed, named)

/-- The operation of a resource that a move calls, with what it is given. -/
def Move.called? : Move → Option (ResourceId × String × List Json × Keyed Json)
  | .call id name unnamed named => (Act.called? name unnamed named).map fun called => (id, called)
  | _ => none

namespace Act

/-- A relation that allows whatever is done to use a graph, but that a resource keeps a reference. -/
structure Handling (R : Graph → Graph → Prop) : Prop extends Building anyCall R where
  serves : ∀ (g : Graph) clients, R g { g with clients }
  enumerates : ∀ (g : Graph) enumerations, R g { g with enumerations }

/-- A relation that allows whatever is done to use a graph. -/
structure Using (R : Graph → Graph → Prop) : Prop extends Handling R where
  /-- A resource keeps a reference of its type. -/
  refers : ∀ (g : Graph) id name o b, g.Names id name o → o.work = .reference b →
    R g (runIn (keptReference id name b) g).2

/-- A name that stands for `invoke` is its name, and one that stands for an operation is what a call
of it comes to. -/
theorem called?_of_readAttribute {g h : Graph} {id : ResourceId} {name : String} {meaning : Attribute}
    (ran : runIn (readAttribute id name) g = (.ok meaning, h)) :
    (meaning = .invoke → h = g ∧ name = "invoke") ∧
      ∀ o, meaning = .operation o →
        ∀ unnamed named, called? name unnamed named = some (name, unnamed, named) := by
  obtain ⟨r, mid, gave, reading⟩ := bind_gives.mp ran
  obtain ⟨there, rfl⟩ := resource_gives gave
  split at reading
  case h_1 | h_2 =>
    obtain ⟨c, _, _, reading⟩ := bind_gives.mp reading
    cases c <;> cases reading <;> refine ⟨fun same => ?_, fun o same => ?_⟩ <;> cases same
  case h_3 =>
    obtain ⟨_, _, _, reading⟩ := bind_gives.mp reading
    cases reading
    refine ⟨fun same => ?_, fun o same => ?_⟩ <;> cases same
  case h_10 =>
    cases reading
    refine ⟨fun _ => ⟨rfl, rfl⟩, fun o same => ?_⟩
    cases same
  case h_15 =>
    split at reading
    · cases reading
    · next plain =>
      refine ⟨?_, ?_⟩
      · rintro rfl
        split at reading
        · cases reading
        · rw [runIn_bind, runIn_typeOf] at reading
          obtain ⟨o, _, _, reading⟩ := bind_gives.mp reading
          cases reading
      · intro o _ unnamed named
        unfold called?
        rw [if_neg (by assumption), if_neg plain]
  all_goals
    cases reading
    refine ⟨fun same => ?_, fun o same => ?_⟩ <;> cases same

section Handling

variable {R : Graph → Graph → Prop} (uses : Handling R)

include uses

theorem Handling.looks {α : Type} {x : Act α} (looks : Looks x) : Keeps R x := looks.keeps uses.lasting

theorem Handling.reads (id : ResourceId) : Keeps R (data id) :=
  data_building (fun _ _ => trivial) uses.toBuilding id

theorem Handling.builds (b : Builder) (context : Context) : Keeps R (build b context) :=
  build_building (fun _ _ => trivial) uses.toBuilding b context

theorem Handling.receives (given : Json) : Keeps R (receive given) :=
  receive_keeps uses.toStoring.taking given

theorem Handling.sends (request : Request) (context : Context) :
    Keeps R (sendRequest data request context) :=
  sendRequest_keeps (fun _ _ => trivial) uses.toCallingWith uses.reads request context

/-! ## Operations -/

theorem Handling.invokes (o : Operation) (context : Context) : Keeps R (invoke o context) := by
  have lasting := uses.lasting
  have begins : ∀ harvest progress, Keeps R (enumerate harvest context progress) :=
    fun harvest progress g => uses.enumerates g _
  unfold invoke
  cases o.work with
  | basic request => exact .bind lasting (uses.sends _ _) fun response => .pure lasting _
  | data request path =>
    refine .bind lasting (uses.sends _ _) fun response => ?_
    exact .bind lasting (search_keeps uses.toStoring _ _) fun v => .pure lasting _
  | enumerateData request path => exact .bind lasting (begins _ _) fun x => .pure lasting _
  | resource request builder =>
    refine .bind lasting (uses.sends _ _) fun response => ?_
    exact .bind lasting (uses.builds _ _) fun built => .pure lasting _
  | enumerateResource request builder => exact .bind lasting (begins _ _) fun x => .pure lasting _
  | reference builder => exact .bind lasting (uses.builds _ _) fun built => .pure lasting _
  | load request path =>
    refine .bind lasting (runLoad_building (fun _ _ => trivial) uses.toBuilding uses.reads _ _ _)
      fun _ => ?_
    split
    · exact .pure lasting _
    · exact .throw lasting _

/-- An operation of a resource is called under its name. -/
theorem Handling.callsOperation {g : Graph} {id : ResourceId} {name : String} {o : Operation}
    {unnamed : List Json}
    {named : Keyed Json} (keeps : ∀ b, unnamed = [] → named = [] → o.work = .reference b →
      b.requiresArgument = false → R g (runIn (keptReference id name b) g).2) :
    R g (runIn (callOperation id name o unnamed named) g).2 := by
  have lasting := uses.lasting
  unfold callOperation
  split
  · next b work =>
    split
    · refine (Keeps.bind lasting (uses.looks (lift_looks _)) fun given => ?_) g
      refine .bind lasting (uses.receives given) fun argument => ?_
      exact .bind lasting (uses.builds _ _) fun built => .pure lasting _
    · next free =>
      split
      · next bare =>
        simp only [Bool.and_eq_true, List.isEmpty_iff] at bare
        have kept := keeps b bare.1 bare.2 work (eq_false_of_ne_true free)
        rcases ran : runIn (keptReference id name b) g with ⟨f | built, h⟩ <;> rw [ran] at kept
        · rw [runIn_bind_error ran]
          exact kept
        · rw [runIn_bind_ok ran]
          exact kept
      · exact lasting.refl g
  · refine (Keeps.bind lasting (uses.looks (lift_looks _)) fun params => ?_) g
    exact uses.invokes _ _

theorem Handling.callsLoad (id : ResourceId) (unnamed : List Json) (named : Keyed Json) :
    Keeps R (callLoad id unnamed named) := by
  have lasting := uses.lasting
  unfold callLoad
  split
  · exact .throw lasting _
  · refine .bind lasting (uses.looks (resource_looks id)) fun r => ?_
    refine .bind lasting (uses.looks (typeOf_looks _)) fun type => ?_
    split
    · exact .throw lasting _
    · refine .bind lasting (uses.looks (lift_looks _)) fun params => ?_
      refine .bind lasting (load_building (fun _ _ => trivial) uses.toBuilding id params) fun _ => ?_
      exact .pure lasting _

theorem Handling.invokesNamed {g : Graph} {id : ResourceId} {name : Json} {unnamed : List Json}
    {named : Keyed Json}
    (keeps : ∀ text o b, name = .str text → unnamed = [] → named = [] → g.Names id text o →
      o.work = .reference b →
      b.requiresArgument = false → R g (runIn (keptReference id text b) g).2) :
    R g (runIn (invokeNamed id name unnamed named) g).2 := by
  have lasting := uses.lasting
  unfold invokeNamed
  split
  · exact lasting.refl g
  · rw [runIn_bind, runIn_resource]
    cases there : g.resources[id]? with
    | none => exact lasting.refl g
    | some r =>
      dsimp only [Option.elim]
      rw [runIn_bind_ok (runIn_typeOf _ _)]
      rcases found : operationOf ((g.types[r.type.index]?).getD { name := r.type.name }) name with f | o
      · exact lasting.refl g
      · obtain ⟨text, rfl, found⟩ := name_of_operationOf found
        have names := names_of_operation there found
        exact uses.callsOperation fun b bare alone work => keeps text o b rfl bare alone names work

/-- A name of a resource is called. The relation has to allow that a reference is kept only if this
is what the call comes to. -/
theorem Handling.callsNamed {g : Graph} {id : ResourceId} {name : String} {unnamed : List Json}
    {named : Keyed Json}
    (keeps : ∀ other o b, called? name unnamed named = some (other, [], []) → g.Names id other o →
      o.work = .reference b → b.requiresArgument = false → R g (runIn (keptReference id other b) g).2) :
    R g (runIn (callNamed id name unnamed named) g).2 := by
  have lasting := uses.lasting
  have reads := readAttribute_building (fun _ _ => trivial) uses.toBuilding id name g
  unfold callNamed
  rcases gave : runIn (readAttribute id name) g with ⟨f | meaning, mid⟩
  · rw [runIn_bind_error gave]
    rw [gave] at reads
    exact reads
  · rw [runIn_bind_ok gave]
    rw [gave] at reads
    cases meaning with
    | operation o =>
      obtain ⟨rfl, names⟩ := names_of_readAttribute gave
      refine uses.callsOperation fun b bare alone work => keeps name o b ?_ names work
      rw [(called?_of_readAttribute gave).2 o rfl, bare, alone]
    | load => exact lasting.trans reads (uses.callsLoad id unnamed named mid)
    | invoke =>
      obtain ⟨rfl, rfl⟩ := (called?_of_readAttribute gave).1 rfl
      dsimp only
      rw [runIn_bind, runIn_liftResult]
      rcases taken : invokedName unnamed named with f | ⟨given, rest, others⟩
      · exact reads
      · refine uses.invokesNamed fun text o b texts bare alone names work => keeps text o b ?_ names work
        dsimp only at texts bare alone
        subst texts bare alone
        unfold called?
        rw [if_pos rfl, taken]
    | type ref =>
      have connects := fun (g : Graph) v => uses.serves g (g.clients.push (.standIn v))
      refine lasting.trans reads
        ((Keeps.bind lasting (callType_building uses.toBuilding connects ref unnamed named)
        fun x => ?_) mid)
      exact .pure lasting _
    | value _ | client _ | references _ => exact reads

/-! ## Enumerations -/

theorem Handling.harvests (harvest : Harvest) (context : Context) (page : Response) :
    Keeps R (harvestPage harvest context page) :=
  harvestPage_keeps uses.lasting (search_keeps uses.toStoring) harvest context page fun b =>
    uses.builds b _

theorem Handling.seeks (harvest : Harvest) (context : Context) (limit : Nat) (p : Paging) :
    Keeps R (seek harvest context limit p) :=
  seek_keeps uses.lasting (fun p g => uses.calls _ _ (nextPage_calls p g)) harvest context
    (uses.harvests harvest context) limit p

theorem Handling.advances (id : EnumerationId) (e : Enumeration) {paging : Act Paging}
    (opens : Keeps R paging) :
    Keeps R (advance id e paging) :=
  advance_keeps uses.lasting (fun g => uses.enumerates g _) (fun _ _ g => uses.enumerates g _) opens
    (uses.seeks e.harvest e.context)

theorem Handling.nexts (id : EnumerationId) : Keeps R (next id) := by
  have lasting := uses.lasting
  have notes : ∀ progress, Keeps R (setProgress id progress) := fun progress g => uses.enumerates g _
  refine .bind lasting (.get lasting) fun g => ?_
  split
  · exact .pure lasting _
  · split
    · exact .pure lasting _
    · refine uses.advances _ _ ?_
      refine .bind lasting (buildParams_keeps uses.toStoring uses.reads _ _) fun params => ?_
      exact .bind lasting (uses.looks (callerOf_looks _)) fun caller => .pure lasting _
    · refine .bind lasting (notes _) fun _ => ?_
      refine .bind lasting (uses.looks (takeReady_looks _)) fun taken => ?_
      split
      · exact .bind lasting (notes _) fun _ => .pure lasting _
      · exact uses.advances _ _ (.pure lasting _)

/-! ## Moves -/

/-- A move on a graph. The relation has to allow that a reference is kept only if the move calls it. -/
theorem Handling.moves {g : Graph} {move : Move}
    (keeps : ∀ id other o b, move.called? = some (id, other, [], []) →
    g.Names id other o → o.work = .reference b → b.requiresArgument = false →
      R g (runIn (keptReference id other b) g).2) :
    R g (runIn move.act g).2 := by
  have lasting := uses.lasting
  have discarded : ∀ {α : Type} (x : Act α), (runIn (do let _ ← x; return ()) g).2 = (runIn x g).2 := by
    intro α x
    rw [runIn_bind]
    rcases runIn x g with ⟨f | a, h⟩ <;> rfl
  cases move with
  | make type unnamed named client data =>
    refine (Keeps.bind lasting (construct_makes uses.making type unnamed named client data)
      fun _ => ?_) g
    exact .pure lasting _
  | call id name unnamed named =>
    unfold Move.act
    rw [discarded]
    refine uses.callsNamed fun other o b called names work => keeps id other o b ?_ names work
    simp only [Move.called?, called, Option.map_some]
  | read id => exact (Keeps.bind lasting (uses.reads id) fun _ => .pure lasting _) g
  | assign id given => exact (Keeps.bind lasting (uses.receives given) fun v g => uses.sets g id v) g
  | next id => exact (Keeps.bind lasting (uses.nexts id) fun _ => .pure lasting _) g

end Handling

section Using

variable {R : Graph → Graph → Prop} (uses : Using R)

include uses

theorem Using.callsNamed (id : ResourceId) (name : String) (unnamed : List Json) (named : Keyed Json) :
    Keeps R (callNamed id name unnamed named) :=
  fun g => uses.toHandling.callsNamed fun other o b _ names work _ =>
    uses.refers g id other o b names work

theorem Using.moves (move : Move) : Keeps R move.act :=
  fun g => uses.toHandling.moves fun id other o b _ names work _ => uses.refers g id other o b names work

/-- The relation holds along every trail. -/
theorem Using.trails {m : Model} {c : ClientId} {g : Graph} {resources : List ResourceId}
    {enumerations : List EnumerationId} (trail : m.Trail c g resources enumerations) :
    ∃ clients, R (Graph.ofModel m clients) g := by
  have lasting := uses.lasting
  induction trail with
  | opened clients => exact ⟨clients, lasting.refl _⟩
  | served before clients ih => exact ih.imp fun _ so => lasting.trans so (uses.serves _ clients)
  | moved before move ih => exact ih.imp fun _ so => lasting.trans so (uses.moves move _)
  | rooted before made ih =>
    have step := (construct_makes uses.making _ _ _ _ _).related made
    exact ih.imp fun _ so => lasting.trans so step
  | called before held other gave ih =>
    exact ih.imp fun _ so => lasting.trans so ((uses.callsNamed _ _ _ _).related gave)
  | taken before begun gave ih =>
    exact ih.imp fun _ so => lasting.trans so ((uses.nexts _).related gave)

end Using

end Act

/-! ## References that are kept -/

namespace Graph

variable {g h : Graph} {id : ResourceId} {r : Resource} {name : String} {built : Built}

/-- The resource was made by its type. -/
def Identifies (g : Graph) (r : Resource) : Prop :=
  ∃ given, ((g.types[r.type.index]?).getD { name := r.type.name }).identify given = .ok r.identifiers

/-- Where the reference under the name draws from identifiers alone, what was built is a resource
that has what it draws from this one. -/
def Reflects (g : Graph) (id : ResourceId) (name : String) (built : Built) : Prop :=
  ∀ r o b, g.resources[id]? = some r → g.Names id name o → o.work = .reference b → b.Draws →
    ∃ x s, built = .one x ∧ g.resources[x]? = some s ∧ b.Mirrors r .null s

/-- The types are the same, the resources remain, others were made by their types, and other
references that are kept reflect. -/
structure Refers (g h : Graph) : Prop where
  types : h.types = g.types
  resources : ∀ (id : ResourceId) r, g.resources[id]? = some r →
    ∃ s, h.resources[id]? = some s ∧ r.Remains s
  made : ∀ (id : ResourceId) s, h.resources[id]? = some s →
    (∃ r, g.resources[id]? = some r) ∨ h.Identifies s
  kept : ∀ (id : ResourceId) s name built, h.resources[id]? = some s →
    Keyed.get? s.references name = some built →
      (∃ r, g.resources[id]? = some r ∧ Keyed.get? r.references name = some built) ∨
        h.Reflects id name built

/-- The operations of a resource stay. -/
theorem Refers.names_iff (refers : g.Refers h) (there : g.resources[id]? = some r) {o : Operation} :
    h.Names id name o ↔ g.Names id name o := by
  obtain ⟨s, still, remains⟩ := refers.resources id r there
  constructor
  · rintro ⟨s', type, same, typed, found⟩
    cases still.symm.trans same
    exact ⟨r, type, there, by rw [← refers.types, ← remains.type]; exact typed, found⟩
  · rintro ⟨r', type, same, typed, found⟩
    cases there.symm.trans same
    exact ⟨s, type, still, by rw [refers.types, remains.type]; exact typed, found⟩

theorem Refers.identifies (refers : g.Refers h) {s : Resource} (identified : g.Identifies r)
    (remains : r.Remains s) :
    h.Identifies s := by
  unfold Identifies
  rw [refers.types, remains.type, remains.identifiers]
  exact identified

theorem Refers.reflects (refers : g.Refers h) (reflects : g.Reflects id name built)
    (there : g.resources[id]? = some r) : h.Reflects id name built := by
  intro s o b still names work draws
  obtain ⟨s', same, remains⟩ := refers.resources id r there
  cases still.symm.trans same
  obtain ⟨x, t, one, found, mirrors⟩ :=
    reflects r o b there ((refers.names_iff there).mp names) work draws
  obtain ⟨t', last, stays⟩ := refers.resources x t found
  exact ⟨x, t', one, last, mirrors.remains remains stays⟩

theorem refers_lasting : Lasting Refers where
  refl g := ⟨rfl, fun _ r there => ⟨r, there, Resource.remains_lasting.refl r⟩,
    fun _ s there => .inl ⟨s, there⟩, fun _ s _ _ there kept => .inl ⟨s, there, kept⟩⟩
  trans {g h i} first second := by
    refine ⟨second.types.trans first.types,
      Resource.remains_lasting.members first.resources second.resources, fun id t there => ?_,
      fun id t name built there kept => ?_⟩
    · rcases second.made id t there with ⟨s, mid⟩ | identifies
      · rcases first.made id s mid with before | identifies
        · exact .inl before
        · obtain ⟨t', last, remains⟩ := second.resources id s mid
          cases there.symm.trans last
          exact .inr (second.identifies identifies remains)
      · exact .inr identifies
    · rcases second.kept id t name built there kept with ⟨s, mid, same⟩ | reflects
      · rcases first.kept id s name built mid same with before | reflects
        · exact .inl before
        · exact .inr (second.reflects reflects mid)
      · exact .inr reflects

/-- Only what has nothing to do with resources changed. -/
theorem Refers.of_same (types : h.types = g.types) (same : h.resources = g.resources) : g.Refers h :=
  ⟨types, fun _ r there => ⟨r, same ▸ there, Resource.remains_lasting.refl r⟩,
    fun _ s there => .inl ⟨s, same ▸ there⟩, fun _ s _ _ there kept => .inl ⟨s, same ▸ there, kept⟩⟩

/-- One resource became another that remains the same, and keeps no reference that does not reflect. -/
theorem Refers.of_modify {f : Resource → Resource} (id : ResourceId)
    (remains : ∀ r : Resource, r.Remains (f r))
    (kept : ∀ r name built, g.resources[id]? = some r → Keyed.get? (f r).references name = some built →
      Keyed.get? r.references name = some built ∨ g.Reflects id name built) :
    g.Refers { g with resources := g.resources.modify id f } := by
  have resources : ∀ (other : ResourceId) r, g.resources[other]? = some r →
      ∃ s, (g.resources.modify id f)[other]? = some s ∧ r.Remains s := by
    intro other r there
    rw [Array.getElem?_modify, there]
    split
    · exact ⟨f r, rfl, remains r⟩
    · exact ⟨r, rfl, Resource.remains_lasting.refl r⟩
  have before : ∀ (other : ResourceId) s, (g.resources.modify id f)[other]? = some s →
      ∃ r, g.resources[other]? = some r ∧ (s = r ∨ other = id ∧ s = f r) := by
    intro other s there
    rw [Array.getElem?_modify] at there
    split at there
    · next same =>
      obtain ⟨r, found, rfl⟩ := Option.map_eq_some_iff.mp there
      exact ⟨r, found, .inr ⟨same.symm, rfl⟩⟩
    · exact ⟨s, there, .inl rfl⟩
  -- What reflects before the change does so after it, as every resource remains.
  have still : ∀ name built, (∃ r, g.resources[id]? = some r) → g.Reflects id name built →
      Reflects { g with resources := g.resources.modify id f } id name built := by
    rintro name built ⟨r, there⟩ reflects s o b found names work draws
    obtain ⟨s', same, stays⟩ := resources id r there
    cases (show (g.resources.modify id f)[id]? = some s from found).symm.trans same
    obtain ⟨t, type, found', typed, operation⟩ := names
    cases found.symm.trans found'
    obtain ⟨x, u, one, other, mirrors⟩ := reflects r o b there
      ⟨r, type, there, by rw [← stays.type]; exact typed, operation⟩ work draws
    obtain ⟨u', last, kept⟩ := resources x u other
    exact ⟨x, u', one, last, mirrors.remains stays kept⟩
  refine ⟨rfl, resources, fun other s there => ?_, fun other s name built there has => ?_⟩
  · obtain ⟨r, found, _⟩ := before other s there
    exact .inl ⟨r, found⟩
  · obtain ⟨r, found, rfl | ⟨rfl, rfl⟩⟩ := before other s there
    · exact .inl ⟨s, found, has⟩
    · rcases kept r name built found has with old | reflects
      · exact .inl ⟨r, found, old⟩
      · exact .inr (still name built ⟨r, found⟩ reflects)

theorem building_refers : Act.Building Act.anyCall Refers where
  lasting := refers_lasting
  store g s learns := .of_same rfl rfl
  calls g h calls := .of_same calls.types calls.resources
  sets g id data := .of_modify id (fun _ => ⟨rfl, rfl, rfl⟩) fun r name built there kept => .inl kept
  adds g r new := by
    have old : ∀ (id : ResourceId) s, g.resources[id]? = some s →
        (g.resources.push r)[id]? = some s := by
      intro id s there
      have inside := (Array.getElem?_eq_some_iff.mp there).1
      rw [Array.getElem?_push, if_neg (Nat.ne_of_lt inside), there]
    refine ⟨rfl, fun id s there => ⟨s, old id s there, Resource.remains_lasting.refl s⟩,
      fun id s there => ?_, fun id s name built there kept => ?_⟩
    · have there : (g.resources.push r)[id]? = some s := there
      rw [Array.getElem?_push] at there
      split at there
      · cases there
        exact .inr new.identified
      · exact .inl ⟨s, there⟩
    · have there : (g.resources.push r)[id]? = some s := there
      rw [Array.getElem?_push] at there
      split at there
      · cases there
        rw [new.references] at kept
        cases kept
      · exact .inl ⟨s, there, kept⟩
  lists g := .of_same rfl rfl

theorem Names.unique {o other : Operation} (names : g.Names id name o) (again : g.Names id name other) :
    other = o := by
  obtain ⟨r, type, there, typed, found⟩ := names
  obtain ⟨r', type', there', typed', found'⟩ := again
  cases there.symm.trans there'
  cases typed.symm.trans typed'
  exact Option.some.inj (found'.symm.trans found)

/-- What was just built for a reference that draws from identifiers reflects them. -/
theorem reflects_of_build {o : Operation} {b : Builder} (names : g.Names id name o)
    (work : o.work = .reference b)
    (ran : runIn (Act.build b { caller := some id }) g = (.ok built, h)) :
    g.Refers h ∧ h.Reflects id name built := by
  have refers : g.Refers h := (Act.build_building (fun _ _ => trivial) building_refers b _).related ran
  refine ⟨refers, fun s o' b' there names' work' draws => ?_⟩
  obtain ⟨r, type, found, typed, operation⟩ := names
  obtain ⟨s', same, remains⟩ := refers.resources id r found
  cases there.symm.trans same
  obtain rfl := Names.unique ⟨r, type, found, typed, operation⟩ ((refers.names_iff found).mp names')
  cases work.symm.trans work'
  obtain ⟨t, rfl, rfl, mirrors, _⟩ := Act.build_draws_gives draws rfl found ran
  exact ⟨_, t, rfl, Array.getElem?_push_size,
    mirrors.remains remains (Resource.remains_lasting.refl t)⟩

/-- A resource that keeps a reference of its type keeps what was built for it. -/
theorem refers_of_keptReference {o : Operation} {b : Builder} (names : g.Names id name o)
    (work : o.work = .reference b) : g.Refers (runIn (Act.keptReference id name b) g).2 := by
  obtain ⟨r, type, there, typed, operation⟩ := names
  have found : runIn (Act.resource id) g = (.ok r, g) := Act.resource_runs there
  unfold Act.keptReference
  rw [runIn_bind_ok found]
  split
  · exact refers_lasting.refl g
  · have builds := Act.build_building (fun _ _ => trivial) building_refers b { caller := some id } g
    rcases ran : runIn (Act.build b { caller := some id }) g with ⟨f | built, mid⟩
    · rw [ran] at builds
      rw [runIn_bind_error ran]
      exact builds
    · obtain ⟨refers, reflects⟩ := reflects_of_build ⟨r, type, there, typed, operation⟩ work ran
      rw [runIn_bind_ok ran]
      refine refers_lasting.trans refers
        (.of_modify id (fun _ => ⟨rfl, rfl, rfl⟩) fun s other old _ has => ?_)
      by_cases same : other = name
      · subst same
        rw [Keyed.get?_put_self] at has
        cases has
        exact .inr reflects
      · rw [Keyed.get?_put_of_ne _ _ same] at has
        exact .inl has

theorem using_refers : Act.Using Refers where
  toBuilding := building_refers
  serves _ _ := .of_same rfl rfl
  enumerates _ _ := .of_same rfl rfl
  refers _ _ _ _ _ names work := refers_of_keptReference names work

/-- A graph of the model whose resources were made by their types, and whose kept references
reflect. -/
structure Faithful (m : Model) (g : Graph) : Prop where
  types : g.types = (Graph.ofModel m []).types
  made : ∀ (id : ResourceId) r, g.resources[id]? = some r → g.Identifies r
  kept : ∀ (id : ResourceId) r name built, g.resources[id]? = some r →
    Keyed.get? r.references name = some built → g.Reflects id name built

theorem Faithful.refers {m : Model} (faithful : g.Faithful m) (refers : g.Refers h) : h.Faithful m where
  types := refers.types.trans faithful.types
  made id s there := by
    rcases refers.made id s there with ⟨r, before⟩ | identifies
    · obtain ⟨s', same, remains⟩ := refers.resources id r before
      cases there.symm.trans same
      exact refers.identifies (faithful.made id r before) remains
    · exact identifies
  kept id s name built there has := by
    rcases refers.kept id s name built there has with ⟨r, before, same⟩ | reflects
    · exact refers.reflects (faithful.kept id r name built before same) before
    · exact reflects

/-- Every graph on a trail is faithful to its model. -/
theorem faithful_of_trail {m : Model} {c : ClientId} {resources : List ResourceId}
    {enumerations : List EnumerationId} (trail : m.Trail c g resources enumerations) : g.Faithful m := by
  obtain ⟨clients, refers⟩ := using_refers.trails trail
  have bare : (Graph.ofModel m clients).Faithful m :=
    ⟨rfl, fun id r there => by simp [Graph.ofModel] at there, fun id r name built there => by
      simp [Graph.ofModel] at there⟩
  exact bare.refers refers

end Graph

end ResourceGraph
