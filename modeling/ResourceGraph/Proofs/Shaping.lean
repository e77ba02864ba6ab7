import ResourceGraph.Graph.Access
import ResourceGraph.Graph.Open
import ResourceGraph.Proofs.Attachment
import ResourceGraph.Proofs.Calling

/-!
Shaping a type. Until it is frozen a type takes identifiers, operations and a load operation, one
call after another. A call that is refused changes nothing, and a frozen type refuses all of them
for good.

No operation is added under the name of an identifier. The other way round nothing is checked: an
identifier may take the name of an operation, and that is the only way in which the two come to
share one.
-/

namespace ResourceGraph

/-- A call that shapes a type. -/
inductive TypeChange
  | identifier (name : String)
  | load (o : Operation)
  | operation (name : String) (o : Operation)
  | freeze

namespace TypeChange

/-- The outcome of a call on a type. -/
def apply : TypeChange → ResourceType → Except Failure ResourceType
  | identifier name, t => t.addIdentifier name
  | load o, t => t.setLoad o
  | operation name o, t => t.addOperation name o
  | freeze, t => .ok t.freeze

/-- A call on the type of a graph. -/
def act (ref : TypeRef) (c : TypeChange) : Act ResourceType := Act.changeType ref c.apply

/-- What has to be so for a type to take the call. -/
def Fits (t : ResourceType) : TypeChange → Prop
  | identifier name => t.isFrozen = false ∧ name ∉ t.identifiers ∧ name ∉ reservedNames
  | load o => t.isFrozen = false ∧ o.kind = .load ∧ t.load = none
  | operation name _ =>
    t.isFrozen = false ∧ name ∉ t.operationNames ∧ name ∉ t.identifiers ∧ name ∉ reservedNames
  | freeze => True

/-- The type that a call which fits makes of a type. -/
def made (t : ResourceType) : TypeChange → ResourceType
  | identifier name =>
    { t with identifiers := t.identifiers ++ [name], accessors := t.accessors ++ [(name, name)] }
  | load o => { t with load := some o }
  | operation name o => { t with operations := t.operations ++ [(name, o)] }
  | freeze => { t with isFrozen := true }

/-- What a frozen type answers. -/
def sealedAnswer (t : ResourceType) : TypeChange → Except Failure ResourceType
  | freeze => .ok t
  | _ => .error (.definition (.frozen t.name))

/-- The type after a call: what the call made of it, or the type itself where the call was refused. -/
def on (t : ResourceType) (c : TypeChange) : ResourceType := (c.apply t).toOption.getD t

end TypeChange

/-- The type after calls made one after another, whichever of them were refused. -/
def ResourceType.after (t : ResourceType) (changes : List TypeChange) : ResourceType :=
  changes.foldl TypeChange.on t

/-- A name that is an identifier and an operation. -/
def ResourceType.Shares (t : ResourceType) (name : String) : Prop :=
  name ∈ t.identifiers ∧ name ∈ t.operationNames

instance (t : ResourceType) (name : String) : Decidable (t.Shares name) := instDecidableAnd

/-- What holds of a type whatever calls it was shaped by. -/
structure ResourceType.WellShaped (t : ResourceType) : Prop where
  identifiers : t.identifiers.Nodup
  operations : t.operationNames.Nodup
  unreserved : ∀ name, name ∈ t.identifiers ∨ name ∈ t.operationNames → name ∉ reservedNames
  load : ∀ o, t.load = some o → o.kind = .load
  /-- The accessors list the identifiers in order, and each reads the one of its name. -/
  accessors : t.accessors = t.identifiers.map fun name => (name, name)

/-! ## One call -/

namespace TypeChange

variable {t : ResourceType} {c : TypeChange}

/-- A call that fits is taken, with this effect and no other. -/
theorem apply_of_fits (fits : c.Fits t) : c.apply t = .ok (c.made t) := by
  cases c with
  | identifier name =>
    obtain ⟨loose, fresh, unreserved⟩ := fits
    simp [apply, ResourceType.addIdentifier, made, loose, fresh, unreserved]
  | load o =>
    obtain ⟨loose, kind, unset⟩ := fits
    simp [apply, ResourceType.setLoad, made, loose, kind, unset]
  | operation name o =>
    obtain ⟨loose, fresh, unlike, unreserved⟩ := fits
    have absent : Keyed.has t.operations name = false := by
      rw [← Bool.not_eq_true, Keyed.has_iff]
      exact fresh
    simp [apply, ResourceType.addOperation, made, loose, absent, unlike, unreserved]
  | freeze => rfl

/-- A call that is taken fits: the checks of each call are those of its condition. -/
theorem fits_of_apply {u : ResourceType} (taken : c.apply t = .ok u) : c.Fits t := by
  have loose : ∀ {frozen : Bool} {fault : DefinitionFault} {rest : Except Failure ResourceType},
      (if frozen then ResourceType.refuse fault else rest) = .ok u → frozen = false := by
    intro frozen fault rest ran
    cases frozen with
    | false => rfl
    | true => cases ran
  cases c with
  | identifier name =>
    obtain ⟨-, fresh, unreserved⟩ := ResourceType.of_addIdentifier taken
    exact ⟨loose taken, fresh, unreserved⟩
  | load o =>
    obtain ⟨-, kind, unset⟩ := ResourceType.of_setLoad taken
    exact ⟨loose taken, kind, unset⟩
  | operation name o =>
    obtain ⟨-, fresh, unlike, unreserved⟩ := ResourceType.of_addOperation taken
    exact ⟨loose taken, fresh, unlike, unreserved⟩
  | freeze => trivial

/-- A call fails with a fault of definition and with no other. -/
theorem definition_of_apply {failure : Failure} (refused : c.apply t = .error failure) :
    ∃ fault, failure = .definition fault := by
  cases c <;>
    simp only [apply, ResourceType.addIdentifier, ResourceType.setLoad, ResourceType.addOperation,
      ResourceType.refuse] at refused <;>
    grind

private theorem refused_of_unfit (unfit : ¬ c.Fits t) :
    ∃ fault, c.apply t = .error (.definition fault) := by
  cases answer : c.apply t with
  | ok u => exact absurd (fits_of_apply answer) unfit
  | error failure =>
    obtain ⟨fault, rfl⟩ := definition_of_apply answer
    exact ⟨fault, rfl⟩

private theorem apply_frozen (frozen : t.isFrozen = true) : c.apply t = c.sealedAnswer t := by
  cases c with
  | identifier name =>
    simp [apply, ResourceType.addIdentifier, frozen, ResourceType.refuse, sealedAnswer]
  | load o => simp [apply, ResourceType.setLoad, frozen, ResourceType.refuse, sealedAnswer]
  | operation name o =>
    simp [apply, ResourceType.addOperation, frozen, ResourceType.refuse, sealedAnswer]
  | freeze =>
    obtain ⟨_, _, _, _, _, _⟩ := t
    cases frozen
    rfl

theorem on_of_fits (fits : c.Fits t) : c.on t = c.made t := by
    simp [on, apply_of_fits fits, Except.toOption]

theorem on_of_unfit (unfit : ¬ c.Fits t) : c.on t = t := by
  obtain ⟨fault, refused⟩ := refused_of_unfit unfit
  simp [on, refused, Except.toOption]

private theorem on_frozen (frozen : t.isFrozen = true) : c.on t = t := by
  rw [on, apply_frozen frozen]
  cases c <;> rfl

end TypeChange

namespace ResourceType

open TypeChange

variable {t u : ResourceType} {c : TypeChange} {name : String}

private theorem operationNames_append (t : ResourceType) (name : String) (o : Operation) :
    operationNames { t with operations := t.operations ++ [(name, o)] } =
      t.operationNames ++ [name] := by
  simp [operationNames, Keyed.keys]

/-- The names of a call that fits are new and free. -/
theorem WellShaped.made (shaped : t.WellShaped) (fits : c.Fits t) : (c.made t).WellShaped := by
  cases c with
  | identifier name =>
    obtain ⟨-, fresh, unreserved⟩ := fits
    refine ⟨?_, shaped.operations, ?_, shaped.load, ?_⟩
    · rw [TypeChange.made, ← List.concat_eq_append]
      exact shaped.identifiers.concat fresh
    · rintro other (member | operation)
      · rcases List.mem_append.mp member with old | new
        · exact shaped.unreserved other (.inl old)
        · exact List.mem_singleton.mp new ▸ unreserved
      · exact shaped.unreserved other (.inr operation)
    · simp [TypeChange.made, shaped.accessors]
  | load o =>
    obtain ⟨-, kind, -⟩ := fits
    refine ⟨shaped.identifiers, shaped.operations, shaped.unreserved, ?_, shaped.accessors⟩
    rintro other ⟨⟩
    exact kind
  | operation name o =>
    obtain ⟨-, fresh, -, unreserved⟩ := fits
    refine ⟨shaped.identifiers, ?_, ?_, shaped.load, shaped.accessors⟩
    · rw [TypeChange.made, operationNames_append, ← List.concat_eq_append]
      exact shaped.operations.concat fresh
    · rw [TypeChange.made, operationNames_append]
      rintro other (identifier | member)
      · exact shaped.unreserved other (.inl identifier)
      · rcases List.mem_append.mp member with old | new
        · exact shaped.unreserved other (.inr old)
        · exact List.mem_singleton.mp new ▸ unreserved
  | freeze =>
    exact ⟨shaped.identifiers, shaped.operations, shaped.unreserved, shaped.load, shaped.accessors⟩

theorem WellShaped.on (shaped : t.WellShaped) (c : TypeChange) : (c.on t).WellShaped := by
  by_cases fits : c.Fits t
  · rw [on_of_fits fits]
    exact shaped.made fits
  · rw [on_of_unfit fits]
    exact shaped

theorem wellShaped_of_make {label : String} {names : List String} {factory : Option Nat}
    (made : ResourceType.make label names factory = .ok t) : t.WellShaped := by
  obtain ⟨-, listed, -, unset, apart, accessors⟩ := of_make made
  refine ⟨apart.identifiers, apart.operations, ?_, by simp [unset], listed ▸ accessors⟩
  rintro name (identifier | operation)
  · exact apart.unreserved name identifier
  · exact (apart.free name operation).2

/-- A load operation that is set stays. -/
theorem load_on {o : Operation} (set : t.load = some o) (c : TypeChange) : (c.on t).load = some o := by
  by_cases fits : c.Fits t
  · rw [on_of_fits fits]
    cases c with
    | load other => exact absurd (set.symm.trans fits.2.2) (by simp)
    | identifier name => exact set
    | operation name other => exact set
    | freeze => exact set
  · rw [on_of_unfit fits]
    exact set

/-- A call gives a type a shared name only where it is taken and names an identifier after an
operation. -/
theorem shares_on : (c.on t).Shares name ↔
    t.Shares name ∨ c = .identifier name ∧ c.Fits t ∧ name ∈ t.operationNames := by
  by_cases fits : c.Fits t
  · rw [on_of_fits fits]
    cases c with
    | identifier other =>
      simp only [Shares, TypeChange.made, List.mem_append, List.mem_singleton,
        TypeChange.identifier.injEq]
      change (name ∈ t.identifiers ∨ name = other) ∧ name ∈ t.operationNames ↔ _
      grind
    | load o => simp [Shares, TypeChange.made, operationNames]
    | operation other o =>
      rw [Shares, TypeChange.made, operationNames_append]
      obtain ⟨-, -, unlike, -⟩ := fits
      simp only [Shares, List.mem_append, List.mem_singleton]
      grind
    | freeze => simp [Shares, TypeChange.made, operationNames]
  · rw [on_of_unfit fits]
    simp [fits]

/-! ## Calls one after another -/

@[simp]
theorem after_cons (t : ResourceType) (c : TypeChange) (rest : List TypeChange) :
    t.after (c :: rest) = (c.on t).after rest := rfl

theorem WellShaped.after (shaped : t.WellShaped) (changes : List TypeChange) :
    (t.after changes).WellShaped := by
  induction changes generalizing t with
  | nil => exact shaped
  | cons c rest ih => exact ih (shaped.on c)

private theorem load_after {o : Operation} (set : t.load = some o) (changes : List TypeChange) :
    (t.after changes).load = some o := by
  induction changes generalizing t with
  | nil => exact set
  | cons c rest ih => exact ih (load_on set c)

/-- The names that come to be shared are those of identifiers that the type took after an operation
of the same name. -/
theorem shares_after (changes : List TypeChange) :
    (t.after changes).Shares name ↔ t.Shares name ∨
      ∃ before rest, changes = before ++ .identifier name :: rest ∧
        (TypeChange.identifier name).Fits (t.after before) ∧ name ∈ (t.after before).operationNames := by
  induction changes generalizing t with
  | nil => simp [after]
  | cons c rest ih =>
    rw [after_cons, ih, shares_on, or_assoc]
    -- The call in question is the first one, or one of those after it.
    refine or_congr_right ⟨?_, ?_⟩
    · rintro (⟨rfl, fits, taken⟩ | ⟨before, later, rfl, fits, taken⟩)
      · exact ⟨[], rest, rfl, fits, taken⟩
      · exact ⟨c :: before, later, rfl, fits, taken⟩
    · rintro ⟨before, later, split, fits, taken⟩
      rcases List.cons_eq_append_iff.mp split with ⟨rfl, here⟩ | ⟨before, rfl, rfl⟩
      · cases here
        exact .inl ⟨rfl, fits, taken⟩
      · exact .inr ⟨before, later, rfl, fits, taken⟩

end ResourceType

/-! ## Calls on the type of a graph -/

/-- The graph with another type in the place that is referred to. -/
def Graph.withType (g : Graph) (ref : TypeRef) (t : ResourceType) : Graph :=
  { g with types := g.types.setIfInBounds ref.index t }

namespace Graph

variable {g : Graph} {ref : TypeRef} {t : ResourceType} {c : TypeChange}

private theorem withType_there (there : g.types[ref.index]? = some t) (u : ResourceType) :
    (g.withType ref u).types[ref.index]? = some u := by
  obtain ⟨inside, -⟩ := Array.getElem?_eq_some_iff.mp there
  simp [withType, inside]

theorem withType_self (there : g.types[ref.index]? = some t) : g.withType ref t = g := by
  obtain ⟨inside, same⟩ := Array.getElem?_eq_some_iff.mp there
  have types : g.types.setIfInBounds ref.index t = g.types := by
    rw [← same, Array.setIfInBounds, dif_pos inside, Array.set_getElem_self]
  rw [withType, types]

private theorem withType_withType (t u : ResourceType) :
    (g.withType ref t).withType ref u = g.withType ref u := by
  simp [withType]

/-- A call changes the type that it is made on as calls do, and nothing else of the graph. -/
theorem runIn_typeChange (there : g.types[ref.index]? = some t) (c : TypeChange) :
    runIn (c.act ref) g = (c.apply t, g.withType ref (c.on t)) := by
  unfold TypeChange.act Act.changeType
  rw [runIn_bind_ok (Act.runIn_typeOf ref g), there, Option.getD_some, TypeChange.on]
  cases answer : c.apply t with
  | error failure =>
    rw [runIn_bind_error (Act.runIn_liftResult _ g), Except.toOption, Option.getD_none,
      withType_self there]
  | ok u =>
    rw [runIn_bind_ok (Act.runIn_liftResult _ g)]
    rfl

private theorem runEach_typeChanges (there : g.types[ref.index]? = some t) (changes : List TypeChange) :
    (runEach (changes.map (TypeChange.act ref)) g).2 = g.withType ref (t.after changes) := by
  induction changes generalizing g t with
  | nil => exact (withType_self there).symm
  | cons c rest ih =>
    rw [List.map_cons, runEach, runIn_typeChange there]
    exact (ih (withType_there there _)).trans (withType_withType _ _)

/-- A frozen type answers every call with its refusal, and the graph stays as it is. -/
theorem runEach_frozen (there : g.types[ref.index]? = some t) (frozen : t.isFrozen = true)
    (changes : List TypeChange) :
    runEach (changes.map (TypeChange.act ref)) g = (changes.map (TypeChange.sealedAnswer t), g) := by
  induction changes with
  | nil => rfl
  | cons c rest ih =>
    rw [List.map_cons, runEach, runIn_typeChange there, TypeChange.on_frozen frozen, withType_self there,
      TypeChange.apply_frozen frozen]
    simp only [ih, List.map_cons]

/-- The accessors of the type, used on a resource: in the order of the identifiers each of them with
its value, where the resource has them all. -/
theorem declaredIdentifiers_of_type (there : g.types[ref.index]? = some t) (shaped : t.WellShaped)
    {id : ResourceId} {r : Resource} (lives : g.resources[id]? = some r) (typed : r.type = ref) :
    ∃ answer, runIn (Act.declaredIdentifiers id) g = (answer, g) ∧
      (∀ pairs, answer = .ok pairs → Keyed.keys pairs = t.identifiers ∧
        ∀ entry ∈ pairs, Keyed.get? r.identifiers entry.1 = some entry.2) ∧
      ((∀ name ∈ t.identifiers, name ∈ Keyed.keys r.identifiers) → ∃ pairs, answer = .ok pairs) := by
  subst typed
  have found : runIn (Act.resource id) g = (.ok r, g) := Act.resource_runs lives
  unfold Act.declaredIdentifiers
  rw [runIn_bind_ok found, runIn_bind_ok (Act.runIn_typeOf r.type g), there, Option.getD_some,
    shaped.accessors]
  induction t.identifiers with
  | nil => exact ⟨.ok [], rfl, by rintro pairs ⟨⟩; simp [Keyed.keys], fun _ => ⟨[], rfl⟩⟩
  | cons name rest ih =>
    obtain ⟨answer, ran, listed, all⟩ := ih
    rw [List.map_cons, List.mapM_cons]
    dsimp only
    cases here : Keyed.get? r.identifiers name with
    | none =>
      refine ⟨.error (.misuse .missingKey), rfl, by rintro pairs ⟨⟩, fun present => ?_⟩
      exact absurd (present name List.mem_cons_self) (Keyed.get?_eq_none_iff.mp here)
    | some v =>
      rw [runIn_bind_ok (runIn_pure (name, v) g)]
      cases answer with
      | error failure =>
        refine ⟨.error failure, by rw [runIn_bind_error ran], by rintro pairs ⟨⟩, fun present => ?_⟩
        obtain ⟨pairs, impossible⟩ :=
          all fun other member => present other (List.mem_cons_of_mem _ member)
        cases impossible
      | ok pairs =>
        obtain ⟨keys, values⟩ := listed pairs rfl
        refine ⟨.ok ((name, v) :: pairs), by rw [runIn_bind_ok ran, runIn_pure], ?_, fun _ => ⟨_, rfl⟩⟩
        rintro _ ⟨⟩
        refine ⟨congrArg (name :: ·) keys, fun entry member => ?_⟩
        rcases List.mem_cons.mp member with rfl | later
        · exact here
        · exact values entry later

/-- How a graph answers calls on a type of it. -/
structure Shapes (g : Graph) (ref : TypeRef) (t : ResourceType) : Prop where
  /-- A call that fits is taken, and what it adds is all that changes. -/
  taken : ∀ c : TypeChange, c.Fits t → runIn (c.act ref) g = (.ok (c.made t), g.withType ref (c.made t))
  /-- Every other call fails with a fault of definition and changes nothing. -/
  refused : ∀ c : TypeChange, ¬ c.Fits t →
    ∃ fault, runIn (c.act ref) g = (.error (.definition fault), g)
  /-- Calls one after another lead to the type after them, refused ones among them or not. -/
  run : ∀ more : List TypeChange, (runEach (more.map (TypeChange.act ref)) g).2 =
    g.withType ref (t.after more)
  /-- The load operation is never replaced. -/
  load : ∀ o more, t.load = some o → (t.after more).load = some o
  /-- Once frozen the type refuses every call but the one to freeze it, and nothing changes any
  more. -/
  frozen : t.isFrozen = true → ∀ more : List TypeChange,
    runEach (more.map (TypeChange.act ref)) g = (more.map (TypeChange.sealedAnswer t), g)
  /-- The accessors list the identifiers in order, each with the value that a resource has for it. -/
  accessors : ∀ id r, g.resources[id]? = some r → r.type = ref →
    ∃ answer, runIn (Act.declaredIdentifiers id) g = (answer, g) ∧
      (∀ pairs, answer = .ok pairs → Keyed.keys pairs = t.identifiers ∧
        ∀ entry ∈ pairs, Keyed.get? r.identifiers entry.1 = some entry.2) ∧
      ((∀ name ∈ t.identifiers, name ∈ Keyed.keys r.identifiers) → ∃ pairs, answer = .ok pairs)

private theorem shapes_of_there (there : g.types[ref.index]? = some t) (shaped : t.WellShaped) :
    g.Shapes ref t where
  taken c fits := by
    rw [runIn_typeChange there, TypeChange.apply_of_fits fits, TypeChange.on_of_fits fits]
  refused c unfit := by
    obtain ⟨fault, refused⟩ := TypeChange.refused_of_unfit unfit
    exact ⟨fault, by
      rw [runIn_typeChange there, refused, TypeChange.on_of_unfit unfit, withType_self there]⟩
  run := runEach_typeChanges there
  load _ more set := ResourceType.load_after set more
  frozen := runEach_frozen there
  accessors _ _ := declaredIdentifiers_of_type there shaped

end Graph

namespace ResourceType

/-- **What holds of a type after any calls.** However a new type was shaped, its identifiers are
distinct and so are its operations, none has a reserved name, its accessors are those of its
identifiers in order, and what it loads with is a load operation. A name is both an identifier and
an operation exactly where the identifier was taken after the operation. In every graph that has the
type, each further call is taken or refused as a whole. -/
theorem shaped_by_changes {label : String} {names : List String} {factory : Option Nat}
    {t : ResourceType} (made : ResourceType.make label names factory = .ok t)
    (changes : List TypeChange) :
    (t.after changes).WellShaped ∧
      (∀ name, (t.after changes).Shares name ↔
        ∃ before rest, changes = before ++ .identifier name :: rest ∧
          (TypeChange.identifier name).Fits (t.after before) ∧ name ∈ (t.after before).operationNames) ∧
      ∀ (g : Graph) (ref : TypeRef), g.types[ref.index]? = some (t.after changes) →
        g.Shapes ref (t.after changes) := by
  have shaped := (wellShaped_of_make made).after changes
  obtain ⟨-, -, bare, -⟩ := of_make made
  refine ⟨shaped, fun name => ?_, fun g ref there => Graph.shapes_of_there there shaped⟩
  have unshared : ¬ t.Shares name := fun ⟨_, operation⟩ => by
    simp [operationNames, Keyed.keys, bare] at operation
  rw [shares_after, or_iff_right unshared]

/-- An operation that makes one call. -/
def pinging : Operation := ⟨.basic ⟨"ping", []⟩, {}⟩

/-- A type that refused an operation, took another, and was frozen. -/
theorem shaped_by_changes_pinging :
    ResourceType.make "User" ["name"] none = .ok { name := "User", identifiers := ["name"] } ∧
      let user : ResourceType := { name := "User", identifiers := ["name"] }
      let changes := [.operation "name" pinging, .operation "ping" pinging, .freeze]
      user.after changes =
          { name := "User", identifiers := ["name"], operations := [("ping", pinging)],
            isFrozen := true } ∧
        (user.after changes).WellShaped ∧ ¬ (user.after changes).Shares "name" ∧
        Graph.Shapes { types := #[user.after changes] } ⟨0, "User"⟩ (user.after changes) := by
  have made : ResourceType.make "User" ["name"] none =
      .ok { name := "User", identifiers := ["name"] } := rfl
  obtain ⟨shaped, -, shapes⟩ :=
    shaped_by_changes made [.operation "name" pinging, .operation "ping" pinging, .freeze]
  exact ⟨made, rfl, shaped, by decide, shapes _ _ rfl⟩

/-- A type that has an operation takes an identifier of the same name. -/
theorem identifier_shadows_operation :
    ¬ ∀ label names factory t, ResourceType.make label names factory = .ok t → ∀ changes name,
      name ∈ (t.after changes).operationNames → name ∉ (t.after changes).identifiers := by
  intro apart
  have both := apart "User" [] none { name := "User" } rfl
    [.operation "name" pinging, .identifier "name"] "name"
  exact both (by decide) (by decide)

end ResourceType

end ResourceGraph
