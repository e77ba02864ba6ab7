import ResourceGraph.Proofs.Kinship

/-!
What the actions on a graph of a model give. A builder of the model makes kin of its caller; an
operation gives such kin, or the caller itself, or an enumeration that the caller began; and the
elements of an enumeration are kin of the one who began it. Every action leaves a graph of the model
again, in which all resources and enumerations are still there.
-/

namespace ResourceGraph

open ResourceGraph.Graph Store

/-- The operation builds resources of types of the model only. -/
def Operation.Owned (m : Model) (o : Operation) : Prop :=
  ∀ b, o.builder? = some b → ∃ type, m.Owns b.target type

/-- The outcome is of an operation of the resource: it gives kin of it, or itself, and begins
enumerations for it. -/
structure Graph.Gives (m : Model) (id : ResourceId) (g : Graph) (o : Outcome) : Prop where
  resources : ∀ x ∈ o.resources, x = id ∨ g.Kin m (some id) x
  enumerations : ∀ x ∈ o.enumerations, ∃ context, g.Begun x context ∧ context.caller = some id

namespace Act

variable {m : Model} {α β : Type} {g h : Graph} {S : Graph → α → Prop} {Q : Graph → β → Prop}

/-- From the graph the action goes on to a graph of the model, and there what it gives has a
property. -/
structure Yields (m : Model) (Q : Graph → α → Prop) (x : Act α) (g : Graph) : Prop where
  goesOn : g.GoesOn (runIn x g).2
  kindred : (runIn x g).2.Kindred m
  gives : ∀ a h, runIn x g = (.ok a, h) → Q h a

/-- Nothing is said of what the action gives. -/
abbrev anything : Graph → α → Prop := fun _ _ => True

namespace Yields

variable {x : Act α} {f : α → Act β}

theorem pure {a : α} (kindred : g.Kindred m) (has : S g a) : Yields m S (Pure.pure a) g :=
  ⟨goesOn_lasting.refl g, kindred, fun b h ran => by cases ran; exact has⟩

theorem throw {failure : Failure} (kindred : g.Kindred m) : Yields m S (Act.fail failure : Act α) g :=
  ⟨goesOn_lasting.refl g, kindred, nofun⟩

theorem settled (kindred : g.Kindred m) (keeps : Keeps Settled x) : Yields m anything x g :=
  ⟨.of_change (keeps g).change, kindred.of_settled (keeps g), fun _ _ _ => trivial⟩

/-- The second action goes on from what the first one gave. -/
theorem bind (first : Yields m S x g)
    (rest : ∀ a mid, runIn x g = (.ok a, mid) → g.GoesOn mid → mid.Kindred m → S mid a →
      Yields m Q (f a) mid) : Yields m Q (x >>= f) g := by
  obtain ⟨on, kindred, gives⟩ := first
  rcases ran : runIn x g with ⟨failure | a, mid⟩ <;> rw [ran] at on kindred
  · have failed : runIn (x >>= f) g = (.error failure, mid) := runIn_bind_error ran
    exact ⟨failed ▸ on, failed ▸ kindred, fun b h gave => by rw [failed] at gave; cases gave⟩
  · have next : runIn (x >>= f) g = runIn (f a) mid := runIn_bind_ok ran
    have last := rest a mid ran on kindred (gives a mid ran)
    exact ⟨next ▸ goesOn_lasting.trans on last.goesOn, next ▸ last.kindred, fun b h gave =>
      last.gives b h (next ▸ gave)⟩

/-- The first action leaves the references that are kept. -/
theorem after (kindred : g.Kindred m) (keeps : Keeps Settled x)
    (rest : ∀ a mid, runIn x g = (.ok a, mid) → g.GoesOn mid → mid.Kindred m → Yields m Q (f a) mid) :
    Yields m Q (x >>= f) g :=
  bind (settled kindred keeps) fun a mid ran on kindred _ => rest a mid ran on kindred

/-- What an action gives is turned into something else. -/
theorem map {k : α → β} (first : Yields m S x g) (turned : ∀ h a, S h a → Q h (k a)) :
    Yields m Q (x >>= fun a => Pure.pure (k a)) g :=
  bind first fun a mid _ _ kindred has => pure kindred (turned mid a has)

private theorem mono (first : Yields m S x g) {T : Graph → α → Prop} (weaker : ∀ h a, S h a → T h a) :
    Yields m T x g :=
  ⟨first.goesOn, first.kindred, fun a h ran => weaker h a (first.gives a h ran)⟩

/-- What is given for one member after another is still so at the end. -/
theorem mapM {step : α → Act β} {items : List α} (kindred : g.Kindred m)
    (each : ∀ a ∈ items, ∀ g, g.Kindred m → Yields m Q (step a) g)
    (stable : ∀ g h b, GoesOn g h → Q g b → Q h b) :
    Yields m (fun h bs => ∀ b ∈ bs, Q h b) (items.mapM step) g := by
  induction items generalizing g with
  | nil =>
    rw [List.mapM_nil]
    exact pure kindred (by simp)
  | cons first rest ih =>
    rw [List.mapM_cons]
    refine bind (each first List.mem_cons_self g kindred) fun b mid _ _ kindred has => ?_
    refine bind (ih kindred fun a member => each a (List.mem_cons_of_mem _ member))
      fun bs last _ on kindred others => ?_
    refine pure kindred fun c member => ?_
    rcases List.mem_cons.mp member with rfl | later
    · exact stable mid last _ on has
    · exact others c later

end Yields

theorem settled_of_looks {x : Act α} (looks : Looks x) : Keeps Settled x := looks.keeps settled_lasting

theorem settled_of_receive (given : Json) : Keeps Settled (receive given) :=
  receive_keeps building_settled.toStoring.taking given

/-! ## Building -/

section Building

variable {b : Builder} {context : Context} {type : ResourceType}

/-- A resource that was made by a builder of the model is kin of the caller. -/
theorem buildOne_yields (kindred : g.Kindred m) (owns : m.Owns b.target type) (values : Keyed Datum) :
    Yields m (fun h x => h.Kin m context.caller x) (buildOne b context values) g := by
  have keeps := buildOne_building building_settled b context values
  refine ⟨.of_change (keeps g).change, kindred.of_settled (keeps g), fun x h ran => ?_⟩
  obtain ⟨r, _, made, rfl, rfl⟩ := buildOne_gives ran
  obtain ⟨caller, s, same, there, client⟩ := made.client
  have inside := (Array.getElem?_eq_some_iff.mp there).1
  refine ⟨caller, s, same, ?_, r, Array.getElem?_push_size, ?_⟩
  · rw [Array.getElem?_push, if_neg (Nat.ne_of_lt inside)]
    exact there
  · rw [← client]
    exact made.new.whole kindred.types (made.type ▸ owns)

/-- What a builder of the model makes is kin of the caller. -/
theorem build_yields (kindred : g.Kindred m) (owns : m.Owns b.target type) (context : Context) :
    Yields m (fun h built => ∀ x ∈ built.members, h.Kin m context.caller x) (build b context) g := by
  refine .after kindred (extractAll_building (fun _ _ => trivial) building_settled b context)
    fun values mid _ _ kindred => ?_
  split
  · refine .after kindred (settled_of_looks (.get eq_lasting)) fun now same _ _ kindred => ?_
    refine .bind (.mapM kindred (fun row _ g kindred => buildOne_yields kindred owns row)
      fun g h x on kin => kin.goesOn on) fun members last _ _ kindred kin => ?_
    refine .after kindred (fun g => building_settled.lists g) fun serial final _ on kindred => ?_
    exact .pure kindred fun x member => (kin x member).goesOn on
  · refine .map (buildOne_yields kindred owns values) fun h x kin y member => ?_
    obtain rfl := List.mem_singleton.mp member
    exact kin

end Building

/-! ## Operations -/

private theorem enumerate_yields {harvest : Harvest} {context : Context} {progress : Progress}
    (kindred : g.Kindred m) (target : ∀ b, harvest = .resources b → ∃ type, m.Owns b.target type)
    (bare : progress.resources = []) :
    Yields m (fun h x => h.Begun x context)
      (enumerate harvest context progress) g := by
  refine ⟨⟨fun _ r there => ⟨r, there, Resource.remains_lasting.refl r⟩, fun id e there => ?_⟩,
    kindred.of_enumerations fun id e there => ?_, fun x h ran => ?_⟩
  · have inside := (Array.getElem?_eq_some_iff.mp there).1
    refine ⟨e, ?_, rfl⟩
    change (g.enumerations.push ⟨harvest, context, progress⟩)[id]? = some e
    rw [Array.getElem?_push, if_neg (Nat.ne_of_lt inside)]
    exact there
  · rw [Array.getElem?_push] at there
    split at there
    · cases there
      refine ⟨target, fun x left => ?_⟩
      rw [bare] at left
      cases left
    · exact kindred.enumerations id e there
  · cases ran
    exact ⟨⟨harvest, context, progress⟩, Array.getElem?_push_size, rfl⟩

private theorem gives_of_members {id : ResourceId} {built : Built}
    (kin : ∀ x ∈ built.members, g.Kin m (some id) x) : g.Gives m id (.built built) :=
  ⟨fun x member => .inr (kin x member), List.forall_mem_nil _⟩

private theorem gives_self (m : Model) (g : Graph) (id : ResourceId) : g.Gives m id (.built (.one id)) :=
  ⟨fun _ member => .inl (List.mem_singleton.mp member), List.forall_mem_nil _⟩

private theorem gives_of_begun {id : ResourceId} {x : EnumerationId} {context : Context}
    (begun : g.Begun x context)
    (called : context.caller = some id) : g.Gives m id (.enumeration x) := by
  refine ⟨List.forall_mem_nil _, fun y member => ?_⟩
  obtain rfl := List.mem_singleton.mp member
  exact ⟨context, begun, called⟩

theorem sendRequest_settled (request : Request) (context : Context) :
    Keeps Settled (sendRequest data request context) :=
  sendRequest_keeps (fun _ _ => trivial) building_settled.toCallingWith
    (data_building (fun _ _ => trivial) building_settled) request context

/-- Invoking an operation of the model. -/
theorem invoke_yields {o : Operation} {id : ResourceId} {context : Context} (kindred : g.Kindred m)
    (owned : o.Owned m) (called : context.caller = some id) :
    Yields m (Gives m id) (invoke o context) g := by
  unfold invoke
  cases work : o.work with
  | basic request =>
    exact .map (.settled kindred (sendRequest_settled _ _)) fun h response _ =>
      ⟨List.forall_mem_nil _, List.forall_mem_nil _⟩
  | data request path =>
    refine .after kindred (sendRequest_settled _ _) fun response mid _ _ kindred => ?_
    exact .map (.settled kindred (search_keeps building_settled.toStoring _ _)) fun h v _ =>
      ⟨List.forall_mem_nil _, List.forall_mem_nil _⟩
  | enumerateData request path =>
    exact .map (enumerate_yields kindred (by simp) rfl) fun h x begun => gives_of_begun begun called
  | resource request builder =>
    obtain ⟨type, owns⟩ := owned builder (by simp [Operation.builder?, work])
    refine .after kindred (sendRequest_settled _ _) fun response mid _ _ kindred => ?_
    exact .map (build_yields kindred owns { context with response := some response }) fun h built kin =>
      gives_of_members (called ▸ kin)
  | enumerateResource request builder =>
    have target := owned builder (by simp [Operation.builder?, work])
    refine .map (enumerate_yields kindred ?_ rfl) fun h x begun => gives_of_begun begun called
    rintro b ⟨⟩
    exact target
  | reference builder =>
    obtain ⟨type, owns⟩ := owned builder (by simp [Operation.builder?, work])
    exact .map (build_yields kindred owns context) fun h built kin => gives_of_members (called ▸ kin)
  | load request path =>
    have loading := runLoad_building (fun _ _ => trivial) building_settled
      (data_building (fun _ _ => trivial) building_settled) request path context
    refine .after kindred loading fun _ mid _ _ kindred => ?_
    rw [called]
    exact .pure kindred (gives_self m mid id)

/-- A reference that is kept is to kin, and so is one that is built to be kept. -/
theorem keptReference_yields {id : ResourceId} {name : String} {b : Builder} {type : ResourceType}
    (kindred : g.Kindred m) (owns : m.Owns b.target type) :
    Yields m (fun h built => ∀ x ∈ built.members, h.Kin m (some id) x) (keptReference id name b) g := by
  refine .after kindred (settled_of_looks (resource_looks id)) fun r mid ran _ kindred => ?_
  obtain ⟨there, rfl⟩ := resource_gives ran
  split
  · next built kept =>
    exact .pure kindred (kindred.references id r there _ (Keyed.mem_of_get? kept))
  · refine .bind (build_yields kindred owns { caller := some id }) fun built mid _ _ kindred kin => ?_
    have change : Change anyCall mid { mid with resources := mid.resources.modify id fun r =>
        { r with references := Keyed.put r.references name built } } :=
      changeResource_change (f := fun r => { r with references := Keyed.put r.references name built })
        (fun _ => ⟨rfl, rfl, rfl⟩) id mid
    refine ⟨.of_change change, kindred.of_reference kin, fun _ h ran => ?_⟩
    cases ran
    exact fun x member => (kin x member).of_change change

/-- Calling an operation of the model under any name. -/
theorem callOperation_yields {o : Operation} {id : ResourceId} (kindred : g.Kindred m)
    (owned : o.Owned m) (name : String) (unnamed : List Json) (named : Keyed Json) :
    Yields m (Gives m id) (callOperation id name o unnamed named) g := by
  have invoked : Yields m (Gives m id) (do
      invoke o { caller := some id, params := ← lift (callParams unnamed named) }) g :=
    .after kindred (settled_of_looks (lift_looks _)) fun params mid _ _ kindred =>
      invoke_yields kindred owned rfl
  unfold callOperation
  split
  · next builder work =>
    obtain ⟨type, owns⟩ := owned builder (by simp [Operation.builder?, work])
    split
    · refine .after kindred (settled_of_looks (lift_looks _)) fun given mid _ _ kindred => ?_
      refine .after kindred (settled_of_receive given) fun argument last _ _ kindred => ?_
      exact .map (build_yields kindred owns { caller := some id, argument }) fun h built =>
        gives_of_members
    · split
      · exact .map (keptReference_yields kindred owns) fun h built => gives_of_members
      · exact .throw kindred
  · exact invoked

private theorem callLoad_yields (kindred : g.Kindred m) (id : ResourceId) (unnamed : List Json)
    (named : Keyed Json) : Yields m (Gives m id) (callLoad id unnamed named) g := by
  unfold callLoad
  split
  · exact .throw kindred
  · refine .after kindred (settled_of_looks (resource_looks id)) fun r mid _ _ kindred => ?_
    refine .after kindred (settled_of_looks (typeOf_looks _)) fun type mid _ _ kindred => ?_
    split
    · exact .throw kindred
    · refine .after kindred (settled_of_looks (lift_looks _)) fun params mid _ _ kindred => ?_
      refine .after kindred (load_building (fun _ _ => trivial) building_settled id params)
        fun _ last _ _ kindred => ?_
      exact .pure kindred (gives_self m last id)

/-- The operations that are attached to the types of a well-formed model build resources of its
types. -/
theorem Attached.owned {id : ResourceId} {o : Operation} (attached : Attached g id o)
    (formed : m.WellFormed) (kindred : g.Kindred m) : o.Owned m := by
  obtain ⟨r, type, name, _, typed, member⟩ := attached
  intro b given
  have made : ∀ type : ResourceType, type.WellFormed m → (name, o) ∈ type.operations →
      ∃ type, m.Owns b.target type := fun type fine member => by
    obtain ⟨target, listed, _⟩ := ((fine.operations (name, o) member).builder b given).target
    exact ⟨target, .inr listed⟩
  have listed : type ∈ m.types.map Prod.snd ++ [m.root] := by
    rw [kindred.types] at typed
    exact List.mem_of_getElem? (i := r.type.index) (by simpa [Graph.ofModel] using typed)
  rcases List.mem_append.mp listed with inside | last
  · obtain ⟨entry, among, rfl⟩ := List.mem_map.mp inside
    exact made _ (formed.types entry among) member
  · obtain rfl := List.mem_singleton.mp last
    exact made _ formed.root member

private theorem invokeNamed_yields (formed : m.WellFormed) (kindred : g.Kindred m) (id : ResourceId)
    (name : Json) (unnamed : List Json) (named : Keyed Json) :
    Yields m (Gives m id) (invokeNamed id name unnamed named) g := by
  unfold invokeNamed
  split
  · exact .throw kindred
  · refine .after kindred (settled_of_looks (resource_looks id)) fun r mid ran _ kindred => ?_
    obtain ⟨there, rfl⟩ := resource_gives ran
    refine .after kindred (settled_of_looks (typeOf_looks _)) fun type last ran _ kindred => ?_
    rw [runIn_typeOf] at ran
    cases ran
    refine .after kindred (settled_of_looks (lift_looks _)) fun o last ran _ kindred => ?_
    obtain ⟨found, rfl⟩ := lift_gives ran
    obtain ⟨_, rfl, found⟩ := name_of_operationOf found
    exact callOperation_yields kindred ((attached_of_operation there found).owned formed kindred) _ _ _

/-- The name stands for the type of a resource, which makes others when it is called. -/
def namesType (name : String) : Prop := name = "resource_type" ∨ name = "_type"

private theorem namesType_of_readAttribute {id : ResourceId} {name : String} {ref : TypeRef}
    (ran : runIn (readAttribute id name) g = (.ok (.type ref), h)) : namesType name := by
  obtain ⟨r, mid, _, reading⟩ := bind_gives.mp ran
  split at reading
  case h_1 | h_2 =>
    obtain ⟨c, _, _, reading⟩ := bind_gives.mp reading
    cases c <;> cases reading
  case h_3 =>
    obtain ⟨_, _, _, reading⟩ := bind_gives.mp reading
    cases reading
  case h_13 => exact .inl rfl
  case h_14 => exact .inr rfl
  case h_15 =>
    split at reading
    · cases reading
    · split at reading
      · cases reading
      · rw [runIn_bind, runIn_typeOf] at reading
        obtain ⟨_, _, _, reading⟩ := bind_gives.mp reading
        cases reading
  all_goals cases reading

private theorem callType_settled (ref : TypeRef) (unnamed : List Json) (named : Keyed Json) :
    Keeps Settled (callType ref unnamed named) :=
  callType_building building_settled (fun g v => .of_resources (connect_change g v) rfl) ref
    unnamed named

/-- Calling whatever a name stands for, unless it is the type. -/
theorem callNamed_yields (formed : m.WellFormed) (kindred : g.Kindred m) (id : ResourceId)
    (name : String) (unnamed : List Json) (named : Keyed Json) :
    Yields m (fun h o => ¬ namesType name → h.Gives m id o) (callNamed id name unnamed named) g := by
  refine .after kindred (readAttribute_building (fun _ _ => trivial) building_settled id name)
    fun meaning mid gave _ kindred => ?_
  cases meaning with
  | operation o =>
    obtain ⟨rfl, attached⟩ := attached_of_readAttribute gave
    exact (callOperation_yields kindred (attached.owned formed kindred) name unnamed named).mono
      fun h o gives _ => gives
  | load => exact (callLoad_yields kindred id unnamed named).mono fun h o gives _ => gives
  | invoke =>
    refine .after kindred (settled_of_looks (lift_looks _)) fun given last _ _ kindred => ?_
    exact (invokeNamed_yields formed kindred id _ _ _).mono fun h o gives _ => gives
  | type ref =>
    refine .map (.settled kindred (callType_settled ref unnamed named)) fun h x _ other => ?_
    exact absurd (namesType_of_readAttribute gave) other
  | value _ | client _ | references _ => exact .throw kindred

/-! ## Enumerations -/

section Enumerations

variable {harvest : Harvest} {context : Context} {id : EnumerationId} {e : Enumeration}

/-- The next of what is ready, and what is left, was ready. -/
theorem resources_of_takeReady {ready left : Ready} {first : Element}
    (ran : runIn (takeReady ready) g = (.ok (some (first, left)), h)) :
    (∀ x, first = .resource x → x ∈ ready.resources) ∧ ∀ x ∈ left.resources, x ∈ ready.resources := by
  unfold takeReady at ran
  split at ran
  · cases ran
  · cases ran
    refine ⟨fun x same => ?_, fun x member => ?_⟩
    · subst same
      exact List.mem_filterMap.mpr ⟨_, List.mem_cons_self, rfl⟩
    · obtain ⟨element, among, same⟩ := List.mem_filterMap.mp member
      exact List.mem_filterMap.mpr ⟨element, List.mem_cons_of_mem _ among, same⟩
  · obtain ⟨content, mid, _, ran⟩ := bind_gives.mp ran
    split at ran
    · rw [runIn_pure, Prod.mk.injEq, Except.ok.injEq, Option.map_eq_some_iff] at ran
      obtain ⟨⟨v, _, same⟩, _⟩ := ran
      cases same
      exact ⟨nofun, nofun⟩
    · cases ran
  · obtain ⟨size, mid, _, ran⟩ := bind_gives.mp ran
    split at ran
    · cases ran
    · split at ran
      · cases ran
      · cases ran
        exact ⟨nofun, nofun⟩

private theorem resources_of_valueElements {v : Datum} {ready : Ready}
    (ran : runIn (valueElements v) g = (.ok ready, h)) : ready.resources = [] := by
  have bare : ∀ all : List Datum, (Ready.elements (all.map .value)).resources = [] := fun all => by
    simp [Ready.resources, Element.resource?]
  obtain ⟨content, mid, _, ran⟩ := bind_gives.mp ran
  split at ran
  · cases ran
    rfl
  · obtain ⟨all, last, _, ran⟩ := bind_gives.mp ran
    obtain ⟨content, final, _, ran⟩ := bind_gives.mp ran
    split at ran <;> cases ran
    · rfl
    · rfl
    · rfl
    · exact bare all

/-- The resources on a page are kin of the caller. -/
theorem harvestPage_yields (kindred : g.Kindred m)
    (target : ∀ b, harvest = .resources b → ∃ type, m.Owns b.target type) (page : Response) :
    Yields m (fun h ready => ∀ x ∈ ready.resources, h.Kin m context.caller x)
      (harvestPage harvest context page) g := by
  cases harvest with
  | values path =>
    refine .after kindred (search_keeps building_settled.toStoring _ _) fun v mid _ _ kindred => ?_
    have looked := Yields.settled kindred (settled_of_looks (valueElements_looks v))
    refine ⟨looked.goesOn, looked.kindred, fun ready h ran x member => ?_⟩
    rw [resources_of_valueElements ran] at member
    cases member
  | resources b =>
    obtain ⟨type, owns⟩ := target b rfl
    refine .bind (build_yields kindred owns { context with response := some page })
      fun built mid _ _ kindred kin => ?_
    split
    · next serial members =>
      refine .pure kindred fun x member => kin x ?_
      obtain ⟨element, among, same⟩ := List.mem_filterMap.mp member
      obtain ⟨y, inside, rfl⟩ := List.mem_map.mp among
      cases same
      exact inside
    · exact .throw kindred
  | responses => exact .pure kindred (by simp [Ready.resources, Element.resource?])

/-- What a step of an enumeration finds is kin of the caller: its element, and what is left of the
page. -/
def Found (m : Model) (caller : Option ResourceId) (h : Graph) : Option (Element × Paging × Ready) → Prop
  | none => True
  | some (first, _, ready) =>
    (∀ x, first = .resource x → h.Kin m caller x) ∧ ∀ x ∈ ready.resources, h.Kin m caller x

private theorem seek_yields (kindred : g.Kindred m)
    (target : ∀ b, harvest = .resources b → ∃ type, m.Owns b.target type) (limit : Nat) (p : Paging) :
    Yields m (Found m context.caller) (seek harvest context limit p) g := by
  induction limit generalizing g p with
  | zero => exact .pure kindred trivial
  | succ limit ih =>
    refine .after kindred (fun g => building_settled.calls _ _ (nextPage_calls p g))
      fun asked mid _ _ kindred => ?_
    split
    · exact .pure kindred trivial
    · next page further _ =>
      refine .bind (harvestPage_yields kindred target page) fun ready last _ _ kindred kin => ?_
      refine .after kindred (settled_of_looks (takeReady_looks ready))
        fun taken final took _ kindred => ?_
      obtain rfl := (takeReady_looks ready).same took
      split
      · obtain ⟨first, left⟩ := resources_of_takeReady took
        exact .pure kindred ⟨fun x is => kin x (first x is), fun x member => kin x (left x member)⟩
      · exact ih kindred further

/-- To note how far an enumeration has come, when what is left of the page is kin of its caller. -/
theorem setProgress_yields {progress : Progress} (kindred : g.Kindred m)
    (left : ∀ e, g.enumerations[id]? = some e → ∀ x ∈ progress.resources, g.Kin m e.context.caller x) :
    Yields m anything (setProgress id progress) g := by
  refine ⟨⟨fun _ r there => ⟨r, there, Resource.remains_lasting.refl r⟩, fun other e there => ?_⟩,
    kindred.of_enumerations fun other e there => ?_, fun _ _ _ => trivial⟩
  · change ∃ f, (g.enumerations.modify id _)[other]? = some f ∧ _
    rw [Array.getElem?_modify, there]
    split
    · exact ⟨_, rfl, rfl⟩
    · exact ⟨e, rfl, rfl⟩
  · rw [Array.getElem?_modify] at there
    split at there
    · next same =>
      subst same
      obtain ⟨before, was, rfl⟩ := Option.map_eq_some_iff.mp there
      exact ⟨(kindred.enumerations id before was).target, left before was⟩
    · exact kindred.enumerations other e there

private theorem exhaust_yields (kindred : g.Kindred m) :
    Yields m anything (setProgress id .exhausted) g :=
  setProgress_yields kindred fun _ _ => nofun

/-- The element that a step gives is kin of the caller. -/
abbrev NextKin (m : Model) (caller : Option ResourceId) (h : Graph) (found : Option Element) : Prop :=
  ∀ x, found = some (.resource x) → h.Kin m caller x

/-- To note the place after an element that was found. -/
theorem place_yields {first : Element} {further : Paging} {ready : Ready} (kindred : g.Kindred m)
    (begun : g.Begun id context) (found : Found m context.caller g (some (first, further, ready))) :
    Yields m (NextKin m context.caller) (do
      setProgress id (.under further ready)
      return some first) g := by
  obtain ⟨kin, left⟩ := found
  refine .bind (setProgress_yields kindred fun f there => ?_) fun _ last _ on kindred _ => ?_
  · obtain ⟨e, same, rfl⟩ := begun
    cases same.symm.trans there
    exact left
  · exact .pure kindred fun x is => (kin x (Option.some.inj is)).goesOn on

private theorem advance_yields {paging : Act Paging} (kindred : g.Kindred m)
    (begun : g.Begun id e.context)
    (target : ∀ b, e.harvest = .resources b → ∃ type, m.Owns b.target type)
    (opens : Keeps Settled paging) :
    Yields m (NextKin m e.context.caller) (advance id e paging) g := by
  refine .bind (exhaust_yields kindred) fun _ g₁ _ on kindred _ => ?_
  have begun := begun.goesOn on
  refine .after kindred opens fun start g₂ _ on kindred => ?_
  have begun := begun.goesOn on
  refine .after kindred (settled_of_looks (client_looks _)) fun c g₃ _ on kindred => ?_
  have begun := begun.goesOn on
  refine .bind (seek_yields kindred target _ start) fun found g₄ _ on kindred kin => ?_
  split
  · exact place_yields kindred (begun.goesOn on) kin
  · exact .pure kindred nofun

/-- The next element of an enumeration, if it is a resource, is kin of the one who began it. -/
theorem next_yields (kindred : g.Kindred m) (id : EnumerationId) :
    Yields m (fun h found => ∀ e, g.enumerations[id]? = some e → NextKin m e.context.caller h found)
      (next id) g := by
  refine .after kindred (settled_of_looks (.get eq_lasting)) fun now mid ran _ kindred => ?_
  rw [runIn_get] at ran
  cases ran
  cases there : g.enumerations[id]? with
  | none => exact .pure kindred nofun
  | some e =>
    have fine := kindred.enumerations id e there
    refine Yields.mono (S := NextKin m e.context.caller) ?_ fun h found kin f same => by
      cases same; exact kin
    dsimp only
    split
    · exact .pure kindred nofun
    · refine advance_yields kindred ⟨e, there, rfl⟩ fine.target ?_
      refine .bind settled_lasting (buildParams_keeps building_settled.toStoring
        (data_building (fun _ _ => trivial) building_settled) _ _) fun params => ?_
      exact .bind settled_lasting (settled_of_looks (callerOf_looks _)) fun _ => .pure settled_lasting _
    · next paging ready under =>
      have elements := fine.elements
      rw [under] at elements
      refine .bind (exhaust_yields kindred) fun _ g₁ _ first kindred _ => ?_
      refine .after kindred (settled_of_looks (takeReady_looks ready))
        fun taken g₂ took second kindred => ?_
      have on := goesOn_lasting.trans first second
      have begun : g₂.Begun id e.context := Begun.goesOn ⟨e, there, rfl⟩ on
      split
      · obtain ⟨isReady, leaves⟩ := resources_of_takeReady took
        exact place_yields kindred begun ⟨fun x is => (elements x (isReady x is)).goesOn on,
          fun x member => (elements x (leaves x member)).goesOn on⟩
      · exact advance_yields kindred begun fine.target (.pure settled_lasting _)

end Enumerations

end Act

end ResourceGraph
