import ResourceGraph.Proofs.Calling

/-!
Building parameters, loading data and building resources change a graph as changes do. The
parameters of a request are built from the store alone, however data is read; only a load sets data,
and only a resource that was just made is added. What a relation between graphs must allow for all
of this is said once, so that it can be used for other relations than those changes.
-/

namespace ResourceGraph

open ResourceGraph.Graph Store Outcome

namespace Act

variable {α β : Type} {kind : Exchange → Prop} {g h : Graph}

/-! ## Requests -/

section Requests

variable {R : Graph → Graph → Prop} {read : ResourceId → Act Datum}

theorem project_keeps (storing : Storing R) (reads : ∀ id, Keeps R (read id))
    (caller : Option ResourceId) (p : Projection) : Keeps R (project read caller p) := by
  have lasting := storing.lasting
  unfold project
  split
  · exact .pure lasting _
  · exact .pure lasting _
  · exact .pure lasting _
  · exact .throw lasting _
  · refine .bind lasting ((resource_looks _).keeps lasting) fun r => ?_
    split
    · exact .pure lasting _
    · exact .throw lasting _
  · exact .throw lasting _
  · exact .throw lasting _
  · exact .throw lasting _
  · refine .bind lasting (reads _) fun data => ?_
    exact .bind lasting ((lift_looks _).keeps lasting) fun text => search_keeps storing text data

theorem apply_keeps (storing : Storing R) (reads : ∀ id, Keeps R (read id))
    (caller : Option ResourceId) (params : Keyed Datum) (p : Projection) :
    Keeps R (apply read caller params p) := by
  refine .bind storing.lasting (project_keeps storing reads caller p) fun value => ?_
  refine .bind storing.lasting (onStore_keeps storing (write_learns _ value params)) fun edited => ?_
  split
  · exact .pure storing.lasting _
  · exact .throw storing.lasting _

theorem buildParams_keeps (storing : Storing R) (reads : ∀ id, Keeps R (read id)) (request : Request)
    (context : Context) : Keeps R (buildParams read request context) := by
  have lasting := storing.lasting
  refine .bind lasting ((lift_looks _).keeps lasting) fun start => ?_
  refine .bind lasting (.foldlM lasting _ (fun params p _ => ?_) _) fun built => ?_
  · exact apply_keeps storing reads context.caller params p
  · split
    · exact share_keeps storing.taking _
    · exact share_keeps storing.taking _

/-- A relation that allows calls of the kind as well. -/
structure CallingWith (kind : Exchange → Prop) (R : Graph → Graph → Prop) : Prop extends Storing R where
  calls : ∀ g h, Calls kind g h → R g h

theorem calling_change : CallingWith kind (Change kind) :=
  ⟨storing_change, fun _ _ calls => calls.change⟩

theorem sendRequest_keeps (single : ∀ x : Exchange, x.Single → kind x) (calling : CallingWith kind R)
    (reads : ∀ id, Keeps R (read id)) (request : Request) (context : Context) :
    Keeps R (sendRequest read request context) := by
  refine .bind calling.lasting (buildParams_keeps calling.toStoring reads _ _) fun params => ?_
  refine .bind calling.lasting ((callerOf_looks _).keeps calling.lasting) fun caller => ?_
  exact fun g => calling.calls g _ (call_keeps serving_calls single _ _ _ g)

theorem cachedOr_keeps (lasting : Lasting R) {otherwise : Act Datum} (keeps : Keeps R otherwise)
    (id : ResourceId) : Keeps R (cachedOr otherwise id) := by
  refine .bind lasting ((resource_looks id).keeps lasting) fun r => ?_
  split
  · exact .pure lasting _
  · exact keeps

end Requests

/-! ## What changes when resources are loaded and built -/

/-- To change what a resource holds, but not what it is. -/
theorem changeResource_change {f : Resource → Resource} (remains : ∀ r : Resource, r.Remains (f r))
    (id : ResourceId) : Keeps (Change kind) (changeResource id f) := by
  intro g
  rw [runIn_changeResource]
  refine ⟨learns_lasting.refl _, rfl, rfl, ?_, ?_,
    fun _ c there => ⟨c, there, Client.goesOn_lasting.refl c⟩, ?_, [], by simp, by simp⟩
  · intro other r there
    dsimp only
    rw [Array.getElem?_modify, there]
    split
    · exact ⟨f r, rfl, remains r⟩
    · exact ⟨r, rfl, Resource.remains_lasting.refl r⟩
  · intro other r there outside
    obtain ⟨inside, _⟩ := Array.getElem?_eq_some_iff.mp there
    simp only [Array.size_modify] at inside
    exact absurd inside (Nat.not_lt.mpr outside)
  · intro other c there outside
    obtain ⟨inside, _⟩ := Array.getElem?_eq_some_iff.mp there
    exact absurd inside (Nat.not_lt.mpr outside)

theorem setData_change (id : ResourceId) (data : Datum) : Keeps (Change kind) (setData id data) :=
  changeResource_change (f := fun r => { r with data := some data }) (fun _ => ⟨rfl, rfl, rfl⟩) id

private theorem add_change {r : Resource} :
    KeepsWhere (fun g => r.Fits g.types) (Change kind) (add r) := by
  intro g fits
  rw [runIn_add]
  refine ⟨learns_lasting.refl _, rfl, rfl, ?_, ?_,
    fun _ c there => ⟨c, there, Client.goesOn_lasting.refl c⟩, ?_, [], by simp, by simp⟩
  · intro id s there
    obtain ⟨inside, _⟩ := Array.getElem?_eq_some_iff.mp there
    refine ⟨s, ?_, Resource.remains_lasting.refl s⟩
    dsimp only
    rw [Array.getElem?_push, if_neg (Nat.ne_of_lt inside)]
    exact there
  · intro id s there outside
    dsimp only at there
    rw [Array.getElem?_push] at there
    split at there
    · cases there
      exact fits
    · obtain ⟨inside, _⟩ := Array.getElem?_eq_some_iff.mp there
      exact absurd inside (Nat.not_lt.mpr outside)
  · intro id c there outside
    obtain ⟨inside, _⟩ := Array.getElem?_eq_some_iff.mp there
    exact absurd inside (Nat.not_lt.mpr outside)

/-- The value of an identifier is the one that is given, and it is not null. -/
theorem of_valueFor {t : ResourceType} {given : Keyed Datum} {name : String} {entry : String × Datum}
    (valued : t.valueFor given name = .ok entry) :
    entry.1 = name ∧ entry.2 ≠ .null ∧ Keyed.get? given name = some entry.2 := by
  unfold ResourceType.valueFor at valued
  split at valued
  · cases valued
  · cases valued
  · next value other found =>
    cases valued
    exact ⟨rfl, other, found⟩

/-- Only declared identifiers are given, and each of them has its value. -/
theorem of_identify {t : ResourceType} {given identifiers : Keyed Datum}
    (identified : t.identify given = .ok identifiers) :
    (∀ name ∈ Keyed.keys given, name ∈ t.identifiers) ∧
      t.identifiers.mapM (t.valueFor given) = .ok identifiers := by
  unfold ResourceType.identify at identified
  dsimp only at identified
  split at identified
  · cases identified
  · split at identified
    · cases identified
    · next declared =>
      exact ⟨by simpa using declared, identified⟩

/-- The identifiers of a resource are the declared ones, in order. -/
theorem keys_of_identify {t : ResourceType} {given identifiers : Keyed Datum}
    (identified : t.identify given = .ok identifiers) : Keyed.keys identifiers = t.identifiers :=
  map_of_mapM (of_identify identified).2 fun _ _ valued => (of_valueFor valued).1

/-- A resource that was just made has the identifiers that its type declares. -/
theorem fits_of_new {types : Array ResourceType} {r : Resource} (new : r.New types) : r.Fits types := by
  obtain ⟨given, identified⟩ := new.identified
  intro type found
  rw [found, Option.getD_some] at identified
  exact keys_of_identify identified

theorem sentParameter_looks (response : Response) (name : String) :
    Looks (sentParameter response name) := by
  refine .bind eq_lasting (opened_looks _) fun params => ?_
  split
  · exact .pure eq_lasting _
  · exact .throw eq_lasting _

/-- A relation that allows that a resource is made. -/
structure Making (R : Graph → Graph → Prop) : Prop where
  lasting : Lasting R
  adds : ∀ (g : Graph) (r : Resource), r.New g.types → R g { g with resources := g.resources.push r }

theorem makeResource_makes {R : Graph → Graph → Prop} (making : Making R) (ref : TypeRef)
    (given : Keyed Datum) (client : Option ClientId) (data : Option Datum) :
    Keeps R (makeResource ref given client data) := by
  have lasting := making.lasting
  refine .bindAfter lasting ((typeOf_looks ref).keeps lasting) fun g type mid ran => ?_
  rw [runIn_typeOf] at ran
  cases ran
  rw [runIn_bind, runIn_liftResult]
  cases identified : ((g.types[ref.index]?).getD { name := ref.name }).identify given with
  | error fault => exact lasting.refl g
  | ok identifiers =>
    dsimp only
    rw [runIn_bind, runIn_liftResult]
    cases ((g.types[ref.index]?).getD { name := ref.name }).clientFor client with
    | error fault => exact lasting.refl g
    | ok client => exact making.adds g _ ⟨⟨given, identified⟩, rfl⟩

theorem construct_makes {R : Graph → Graph → Prop} (making : Making R) (ref : TypeRef)
    (unnamed : List Datum) (named : Keyed Datum) (client : Option ClientId) (data : Option Datum) :
    Keeps R (construct ref unnamed named client data) := by
  have lasting := making.lasting
  refine .bind lasting ((typeOf_looks ref).keeps lasting) fun type => ?_
  exact .bind lasting ((lift_looks _).keeps lasting) fun placed =>
    makeResource_makes making ref placed client data

/-! ## Building -/

section Sources

variable {R : Graph → Graph → Prop} {context : Context} (lasting : Lasting R)
  (searches : ∀ path v, Keeps R (search path v))
  (reads : ∀ id, context.caller = some id → Keeps R (data id))

include lasting searches reads

/-- What is extracted for a source changes a graph as searches do, and reading the data of the
caller. -/
theorem extract_keeps (s : IdentifierSource) : Keeps R (extract context s) := by
  unfold extract
  split
  · split
    · exact .throw lasting _
    · exact .pure lasting _
  · refine .bind lasting ((callerOf_looks _).keeps lasting) fun caller => ?_
    split
    · exact .pure lasting _
    · exact .throw lasting _
  · split
    · next id called => exact .bind lasting (reads id called) fun v => searches _ v
    · exact .throw lasting _
  · exact (sentParameter_looks _ _).keeps lasting
  · exact searches _ _
  · exact .throw lasting _

private theorem extractAll_keeps (b : Builder) : Keeps R (extractAll b context) :=
  .foldlM lasting _ (fun _ s _ =>
    .bind lasting (extract_keeps lasting searches reads s) fun _ => .pure lasting _) _

/-- Building changes a graph as its parts do. -/
theorem build_keeps (b : Builder) (makes : ∀ values, Keeps R (buildOne b context values))
    (lists : Keeps R newList) : Keeps R (build b context) := by
  refine .bind lasting (extractAll_keeps lasting searches reads b) fun values => ?_
  split
  · refine .bind lasting (.get lasting) fun g => ?_
    refine .bind lasting (.mapM lasting fun row _ => makes row) fun members => ?_
    exact .bind lasting lists fun _ => .pure lasting _
  · exact .bind lasting (makes values) fun _ => .pure lasting _

end Sources

/-- A relation that allows calls of the kind, and all that loading and building do. -/
structure Building (kind : Exchange → Prop) (R : Graph → Graph → Prop) : Prop
    extends CallingWith kind R where
  sets : ∀ g id data, R g (runIn (setData id data) g).2
  adds : ∀ (g : Graph) (r : Resource), r.New g.types → R g { g with resources := g.resources.push r }
  lists : ∀ g : Graph, R g { g with lists := g.lists + 1 }

theorem Building.making {R : Graph → Graph → Prop} (building : Building kind R) : Making R :=
  ⟨building.lasting, building.adds⟩

theorem building_change : Building kind (Change kind) where
  toCallingWith := calling_change
  sets g id data := setData_change id data g
  adds g _ new := add_change g (fits_of_new new)
  lists g := by
    refine (Calls.change ?_ : Change kind g _)
    exact ⟨learns_lasting.refl _, rfl, rfl, rfl,
      fun _ c there => ⟨c, there, Client.goesOn_lasting.refl c⟩, rfl, [], by simp, by simp⟩

section Building

variable {R : Graph → Graph → Prop} (single : ∀ x : Exchange, x.Single → kind x)
  (building : Building kind R)

/-! ### Loading -/

include single building

theorem runLoad_building {read : ResourceId → Act Datum} (reads : ∀ id, Keeps R (read id))
    (request : Request) (path : String) (context : Context) :
    Keeps R (runLoad read request path context) := by
  have lasting := building.lasting
  refine .bind lasting (sendRequest_keeps single building.toCallingWith reads _ _) fun response => ?_
  refine .bind lasting (search_keeps building.toStoring _ _) fun data => ?_
  split
  · exact fun g => building.sets g _ _
  · exact .throw lasting _

private theorem loadBy_building {read : ResourceId → Act Datum} (reads : ∀ id, Keeps R (read id))
    (id : ResourceId)
    (params : Json) : Keeps R (loadBy read id params) := by
  have lasting := building.lasting
  refine .bind lasting ((resource_looks id).keeps lasting) fun r => ?_
  refine .bind lasting ((typeOf_looks _).keeps lasting) fun type => ?_
  split
  · exact runLoad_building single building reads _ _ _
  · exact .throw lasting _

private theorem loadedBy_building {read : ResourceId → Act Datum} (reads : ∀ id, Keeps R (read id))
    (id : ResourceId) : Keeps R (loadedBy read id) := by
  have lasting := building.lasting
  refine .tryCatch lasting ?_ fun failure => ?_
  · refine .bind lasting (loadBy_building single building reads id _) fun _ => ?_
    exact cachedOr_keeps lasting (.pure lasting _) id
  · split
    · exact .bind lasting ((resource_looks id).keeps lasting) fun r => .throw lasting _
    · exact .throw lasting _

/-- Reading data, however many loads may lie inside each other. -/
theorem dataWithin_building (depth : Nat) (id : ResourceId) : Keeps R (dataWithin depth id) := by
  induction depth generalizing id with
  | zero => exact cachedOr_keeps building.lasting (.throw building.lasting _) id
  | succ depth ih => exact cachedOr_keeps building.lasting (loadedBy_building single building ih id) id

theorem load_building (id : ResourceId) (params : Json) : Keeps R (load id params) :=
  loadBy_building single building (dataWithin_building single building nestedLoads) id params

/-- Reading the data of a resource, which may load it. -/
theorem data_building (id : ResourceId) : Keeps R (data id) :=
  dataWithin_building single building (nestedLoads + 1) id

omit single

/-! ### Building -/

theorem buildOne_building (b : Builder) (context : Context) (values : Keyed Datum) :
    Keeps R (buildOne b context values) := by
  have lasting := building.lasting
  refine .bind lasting ((callerOf_looks _).keeps lasting) fun caller => ?_
  refine .bind lasting (construct_makes building.making _ _ _ _ _) fun id => ?_
  split
  · exact .bind lasting (fun g => building.sets g _ _) fun _ => .pure lasting _
  · exact .bind lasting (.pure lasting ()) fun _ => .pure lasting _

include single

private theorem extract_building (context : Context) (s : IdentifierSource) :
    Keeps R (extract context s) :=
  extract_keeps building.lasting (search_keeps building.toStoring)
    (fun id _ => data_building single building id) s

theorem extractAll_building (b : Builder) (context : Context) : Keeps R (extractAll b context) :=
  extractAll_keeps building.lasting (search_keeps building.toStoring)
    (fun id _ => data_building single building id) b

/-- Building resources. -/
theorem build_building (b : Builder) (context : Context) : Keeps R (build b context) :=
  build_keeps building.lasting (search_keeps building.toStoring)
    (fun id _ => data_building single building id) b
    (buildOne_building building b context) building.lists

end Building

/-! ## Changes -/

section Changes

variable (single : ∀ x : Exchange, x.Single → kind x)

include single

theorem runLoad_change {read : ResourceId → Act Datum} (reads : ∀ id, Keeps (Change kind) (read id))
    (request : Request) (path : String) (context : Context) :
    Keeps (Change kind) (runLoad read request path context) :=
  runLoad_building single building_change reads request path context

theorem load_change (id : ResourceId) (params : Json) : Keeps (Change kind) (load id params) :=
  load_building single building_change id params

theorem data_change (id : ResourceId) : Keeps (Change kind) (data id) :=
  data_building single building_change id

theorem extract_change (context : Context) (s : IdentifierSource) :
    Keeps (Change kind) (extract context s) := extract_building single building_change context s

theorem extractAll_change (b : Builder) (context : Context) :
    Keeps (Change kind) (extractAll b context) :=
  extractAll_building single building_change b context

theorem build_change (b : Builder) (context : Context) : Keeps (Change kind) (build b context) :=
  build_building single building_change b context

end Changes

theorem data_keeps (id : ResourceId) : Keeps (Change anyCall) (data id) :=
  data_change (fun _ _ => trivial) id

theorem construct_change (ref : TypeRef) (unnamed : List Datum) (named : Keyed Datum)
    (client : Option ClientId) (data : Option Datum) :
    Keeps (Change kind) (construct ref unnamed named client data) :=
  construct_makes building_change.making ref unnamed named client data

theorem buildOne_change (b : Builder) (context : Context) (values : Keyed Datum) :
    Keeps (Change kind) (buildOne b context values) := buildOne_building building_change b context values

end Act

end ResourceGraph
