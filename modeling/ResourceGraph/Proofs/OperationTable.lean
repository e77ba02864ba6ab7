import ResourceGraph.Proofs.ModelSoundness

/-!
The operations that a document prescribes. Read off the rules alone, each type and the root have a
table of operations: those of its own rules, kind by kind in the order of the document, then the
references between parents and children, and for the root the references to types that at most one
identifier tells apart. A model that was compiled has exactly these operations, in this order.
-/

namespace ResourceGraph

open Naming Outcome

/-- What a table says of an operation: its name, its kind, and the type of the resources it gives. -/
structure Row where
  name : String
  kind : OperationKind
  target : Option String := none
  deriving DecidableEq, Repr

/-- The row of an operation. -/
def Row.of (entry : String × Operation) : Row :=
  ⟨entry.1, entry.2.kind, entry.2.builder?.map fun b => b.target.name⟩

/-- The table of a type. -/
def ResourceType.table (t : ResourceType) : List Row := t.operations.map Row.of

/-! ## The tables of a document -/

/-- The resources of the rule fan out: one of its paths addresses a list. -/
def BuildRule.isPlural (rule : BuildRule) : Bool :=
  (rule.identifiers.any fun s => s.kind.isPath && Path.isPlural s.source) || rule.path.any Path.isPlural

/-- The row of an action: resources where it builds them, else the value at its path, else the
response. -/
def ActionRule.row (name : String) (rule : ActionRule) : Row :=
  match rule.resource, rule.path with
  | some build, _ =>
    ⟨snakeCase name, if build.isPlural then .enumerateResource else .resource, build.type⟩
  | none, some path => ⟨snakeCase name, if Path.isPlural path then .enumerateData else .data, none⟩
  | none, none => ⟨snakeCase name, .basic, none⟩

/-- The rows of a plural association. One that declares more than an enumeration does not compile
unless its name has a singular. -/
def HasManyRule.rows (name : String) (rule : HasManyRule) : List Row :=
  let single := (singular? (snakeCase name)).getD ""
  (rule.enumerate.toList.map fun _ => ⟨snakeCase name, .enumerateResource, some rule.type⟩) ++
  (rule.create.toList.map fun _ => ⟨"create_" ++ single, .resource, some rule.type⟩) ++
  (rule.resource.toList.map fun _ => ⟨single, .reference, some rule.type⟩)

/-- The row of a reference. -/
def AssociationRule.row (name : String) (rule : AssociationRule) : Row :=
  ⟨snakeCase name, .reference, some rule.type⟩

/-- The rows of a container, kind by kind. -/
def ContainerRules.rows (rules : ContainerRules) : List Row :=
  (rules.actions.map fun (name, rule) => rule.row name) ++
  (rules.hasMany.flatMap fun (name, rule) => rule.rows name) ++
  (rules.hasSome.map fun (name, rule) => rule.row name) ++
  (rules.hasOne.map fun (name, rule) => rule.row name)

namespace Document

/-- What one child gives the type at a place: the reference down, if the type is the parent, and the
reference up, if it is the child. -/
def childRows (d : Document) (place : Nat) (parent : String) (parentPlace : Nat) (child : String) :
    List Row :=
  (if parentPlace = place then [⟨snakeCase (withoutParent child parent), .reference, some child⟩]
    else []) ++
  (if Keyed.indexOf? d.resources child = some place then [⟨snakeCase parent, .reference, some parent⟩]
    else [])

/-- What the parents and their children give the type at a place. -/
def familyRows (d : Document) (place : Nat) : List Row :=
  d.resources.zipIdx.flatMap fun ((parent, rules), parentPlace) =>
    rules.subResources.toList.flatMap fun sub =>
      sub.resources.flatMap (d.childRows place parent parentPlace)

/-- The table of the type at a place, which has these rules. -/
def table (d : Document) (place : Nat) (rules : ResourceRules) : List Row :=
  rules.container.rows ++ d.familyRows place

/-- The rows of the root, with a reference to a type unless more than one identifier tells the type
apart or the name is there already. -/
def exposing (rows : List Row) (entry : String × ResourceRules) : List Row :=
  if 1 < entry.2.identifiers.length ∨ snakeCase entry.1 ∈ rows.map Row.name then rows
  else rows ++ [⟨snakeCase entry.1, .reference, some entry.1⟩]

/-- The table of the root. -/
def rootTable (d : Document) : List Row := d.resources.foldl exposing d.service.rows

end Document

/-! ## The rows that steps attach -/

/-- The row that an attachment adds, if it is an operation. -/
def Attachment.row? (a : Attachment) : Option Row := a.entry?.map Row.of

/-- The rows that steps add at a site, in their order. -/
def Plan.rowsAt (site : Site) (steps : List Step) : List Row :=
  (attachedAt site steps).filterMap Attachment.row?

/-- Every step of the sequence can be taken. -/
def Plan.Possible (steps : List Step) : Prop := ∀ step ∈ steps, ∃ a, step.attachment = .ok a

namespace Plan

variable {scope : Scope} {owner : Owner} {site : Site} {first second : List Step}

theorem rowsAt_append : rowsAt site (first ++ second) = rowsAt site first ++ rowsAt site second := by
  simp [rowsAt, attachedAt]

theorem rowsAt_flatMap {α : Type} {xs : List α} {steps : α → List Step} {rows : α → List Row}
    (each : ∀ x ∈ xs, rowsAt site (steps x) = rows x) :
    rowsAt site (xs.flatMap steps) = xs.flatMap rows := by
  induction xs with
  | nil => rfl
  | cons x rest ih =>
    have here := each x List.mem_cons_self
    have later := ih fun y member => each y (List.mem_cons_of_mem x member)
    rw [List.flatMap_cons, List.flatMap_cons, rowsAt_append, here, later]

/-- Steps at other sites add nothing here. -/
theorem rowsAt_elsewhere {steps : List Step} (elsewhere : ∀ step ∈ steps, step.site ≠ site) :
    rowsAt site steps = [] := by
  refine List.filterMap_eq_nil_iff.mpr fun a member => ?_
  obtain ⟨step, listed, here⟩ := List.mem_filterMap.mp member
  rw [if_neg (elsewhere step listed)] at here
  cases here

theorem Possible.left (possible : Possible (first ++ second)) : Possible first :=
  fun step member => possible step (List.mem_append_left _ member)

theorem Possible.right (possible : Possible (first ++ second)) : Possible second :=
  fun step member => possible step (List.mem_append_right _ member)

/-- A step that attaches an operation adds its row at its own site. -/
theorem rowsAt_named {name : String} {made : Except Failure Operation} {o : Operation}
    (done : made = .ok o) :
    rowsAt site [named owner name made] = if owner.site = site then [Row.of (name, o)] else [] := by
  subst done
  by_cases here : owner.site = site <;>
    simp [here, rowsAt, attachedAt, named, Except.map, Except.toOption, Attachment.row?,
      Attachment.entry?]

end Plan

/-! ## The rows of the rules -/

section Rules

variable {scope : Scope} {owner : Owner} {target : TypeSignature} {o : Operation}

/-- Types are found under the names they have. -/
theorem Scope.Placed.name_of_lookup (placed : scope.Placed) {rule : String} {type : Option String}
    (found : scope.lookup owner rule type = .ok target) : type = some target.ref.name := by
  unfold Scope.lookup at found
  split at found
  · cases found
  · next name =>
    split at found
    · next type there =>
      cases found
      obtain ⟨index, here⟩ := List.mem_iff_getElem?.mp (Keyed.mem_of_get? there)
      rw [placed index _ here]
    · cases found

theorem IdentifierSource.isPlural_of_source {rule : SourceRule} {s : IdentifierSource}
    (made : Scope.source rule = .ok s) :
    s.isPlural = (rule.kind.isPath && Path.isPlural rule.source) := by
  obtain ⟨rfl, _⟩ := IdentifierSource.of_make made
  cases h : rule.kind <;> simp [IdentifierSource.isPlural, SourceKind.isPath]

/-- A builder is plural exactly when its rule is, and gives resources of the type it was made for. -/
theorem Scope.of_builder {rule : BuildRule} {b : Builder}
    (made : Scope.builder owner target rule = .ok b) :
    b.target = target.ref ∧ b.isPlural = rule.isPlural := by
  obtain ⟨sources, mapped, made⟩ := bind_ok.mp made
  obtain ⟨_, checked, made⟩ := bind_ok.mp made
  obtain ⟨targeted, completed, path, _⟩ := Builder.of_make made
  obtain ⟨added, whole, _, arguments, _⟩ := Builder.of_complete completed
  refine ⟨targeted, ?_⟩
  have given : sources.any IdentifierSource.isPlural =
      rule.identifiers.any fun s => s.kind.isPath && Path.isPlural s.source := by
    have each := map_eq_of_mapM mapped fun _ _ => IdentifierSource.isPlural_of_source
    simpa only [List.any_map, Function.id_comp] using congrArg (List.any · id) each
  have none : added.any IdentifierSource.isPlural = false := by
    refine List.any_eq_false.mpr fun s member => ?_
    simp [IdentifierSource.isPlural, (arguments s member).1, SourceKind.isPath]
  have data : b.dataSource?.toList.any IdentifierSource.isPlural = rule.path.any Path.isPlural := by
    rw [Builder.dataSource?, path]
    cases rule.path with
    | none => rfl
    | some path =>
      by_cases blank : path = ""
      · subst blank
        rfl
      · simp [blank, IdentifierSource.isPlural, SourceKind.isPath]
  rw [Builder.isPlural, Builder.allSources, whole, List.any_append, List.any_append, given, none, data,
    Bool.or_false, BuildRule.isPlural]

theorem Row.of_make {kind : OperationKind} {parts : Parts} (name : String)
    (made : Operation.make kind parts = .ok o) :
    Row.of (name, o) = ⟨name, kind, parts.builder.map fun b => b.target.name⟩ := by
  obtain ⟨ofKind, _, builder, _⟩ := Operation.of_assemble (Operation.of_make made).1
  rw [Row.of, ofKind, builder]

theorem ActionRule.row_of_action (placed : scope.Placed) {name : String} {rule : ActionRule}
    (made : scope.action owner name rule = .ok o) : Row.of (snakeCase name, o) = rule.row name := by
  obtain ⟨call, _, made⟩ := bind_ok.mp made
  obtain ⟨request, path, resource⟩ := rule
  cases resource with
  | some build =>
    obtain ⟨target, found, made⟩ := bind_ok.mp made
    obtain ⟨b, built, made⟩ := bind_ok.mp made
    obtain ⟨targeted, plural⟩ := Scope.of_builder built
    rw [Row.of_make _ made, Option.map_some, targeted, plural, ← placed.name_of_lookup found]
    rfl
  | none =>
    cases path with
    | some path =>
      rw [Row.of_make _ made]
      rfl
    | none =>
      rw [Row.of_make _ made]
      rfl

theorem Row.of_enumeration {rule : CallRule} {name : String} (label : String)
    (made : Scope.enumeration owner name target rule = .ok o) :
    Row.of (label, o) = ⟨label, .enumerateResource, some target.ref.name⟩ := by
  obtain ⟨b, built, made⟩ := bind_ok.mp made
  split at made
  · obtain ⟨call, _, made⟩ := bind_ok.mp made
    rw [Row.of_make _ made, Option.map_some, (Scope.of_builder built).1]
  · cases made

theorem Row.of_creation {rule : CallRule} (label : String)
    (made : Scope.creation owner target rule = .ok o) :
    Row.of (label, o) = ⟨label, .resource, some target.ref.name⟩ := by
  obtain ⟨call, _, made⟩ := bind_ok.mp made
  obtain ⟨b, built, made⟩ := bind_ok.mp made
  rw [Row.of_make _ made, Option.map_some, (Scope.of_builder built).1]

theorem Row.of_reference {rule : BuildRule} {name : String} (label : String)
    (made : Scope.reference owner name target rule = .ok o) :
    Row.of (label, o) = ⟨label, .reference, some target.ref.name⟩ := by
  obtain ⟨b, built, made⟩ := bind_ok.mp made
  rw [Row.of_make _ made, Option.map_some,
    (Scope.of_builder (Scope.of_referenceBuilder built).1).1]

theorem Row.of_singleReference {rule : BuildRule} {name : String} (label : String)
    (made : Scope.singleReference owner name target rule = .ok o) :
    Row.of (label, o) = ⟨label, .reference, some target.ref.name⟩ := by
  obtain ⟨b, built, made⟩ := bind_ok.mp made
  split at made
  · cases made
  · rw [Row.of_make _ made, Option.map_some,
      (Scope.of_builder (Scope.of_referenceBuilder built).1).1]

theorem Row.of_related {sources : List IdentifierSource} (label : String)
    (made : Plan.related target sources = .ok o) :
    Row.of (label, o) = ⟨label, .reference, some target.ref.name⟩ := by
  obtain ⟨b, built, made⟩ := bind_ok.mp made
  rw [Row.of_make _ made, Option.map_some, (Builder.of_make built).1]

end Rules

namespace Plan

variable {scope : Scope} {owner : Owner} {target : TypeSignature}

theorem not_possible_stop {fault : Failure} : ¬ Possible [stop owner fault] := by
  intro possible
  obtain ⟨a, attached⟩ := possible _ (List.mem_singleton_self _)
  cases attached

/-- Steps that attach operations under names add the rows of those operations. -/
theorem rowsAt_map_named {α : Type} {xs : List α} {name : α → String}
    {made : α → Except Failure Operation} {row : α → Row}
    (possible : Possible (xs.map fun x => named owner (name x) (made x)))
    (each : ∀ x ∈ xs, ∀ o, made x = .ok o → Row.of (name x, o) = row x) :
    rowsAt owner.site (xs.map fun x => named owner (name x) (made x)) = xs.map row := by
  rw [List.map_eq_flatMap, List.map_eq_flatMap]
  refine rowsAt_flatMap fun x member => ?_
  obtain ⟨a, attached⟩ := possible _ (List.mem_map_of_mem member)
  obtain ⟨o, done, _⟩ := map_ok.mp attached
  have row : Row.of (name x, o) = row x := each x member o done
  rw [rowsAt_named done, if_pos rfl, row]

private theorem rowsAt_singularSteps {name : String} {rule : HasManyRule}
    (possible : Possible (singularSteps owner name target rule)) :
    rowsAt owner.site (singularSteps owner name target rule) =
      (rule.create.toList.map fun _ =>
        ⟨"create_" ++ (singular? (snakeCase name)).getD "", .resource, some target.ref.name⟩) ++
      (rule.resource.toList.map fun _ =>
        ⟨(singular? (snakeCase name)).getD "", .reference, some target.ref.name⟩) := by
  unfold singularSteps at possible ⊢
  split
  · next nothing =>
    simp only [Bool.and_eq_true, Option.isNone_iff_eq_none] at nothing
    rw [nothing.1, nothing.2]
    rfl
  · next declares =>
    rw [if_neg declares] at possible
    cases single : singular? (snakeCase name) with
    | none =>
      rw [single] at possible
      exact absurd possible not_possible_stop
    | some single' =>
      rw [single] at possible
      have created := rowsAt_map_named possible.left fun create _ o made => Row.of_creation _ made
      have referred := rowsAt_map_named possible.right fun build _ o made => Row.of_reference _ made
      rw [rowsAt_append, created, referred]
      rfl

private theorem rowsAt_hasMany (placed : scope.Placed) {name : String} {rule : HasManyRule}
    (possible : Possible (hasMany scope owner name rule)) :
    rowsAt owner.site (hasMany scope owner name rule) = rule.rows name := by
  unfold hasMany at possible ⊢
  cases found : scope.lookup owner name (some rule.type) with
  | error fault =>
    rw [found] at possible
    exact absurd possible not_possible_stop
  | ok target =>
    rw [found] at possible
    have label : rule.type = target.ref.name := Option.some.inj (placed.name_of_lookup found)
    have listed := rowsAt_map_named possible.left fun call _ o made => Row.of_enumeration _ made
    dsimp only
    rw [rowsAt_append, listed, rowsAt_singularSteps possible.right, ← List.append_assoc, ← label]
    rfl

theorem rowsAt_container (placed : scope.Placed) {rules : ContainerRules}
    (possible : Possible (container scope owner rules)) :
    rowsAt owner.site (container scope owner rules) = rules.rows := by
  unfold container at possible ⊢
  have actions := rowsAt_map_named possible.left.left.left fun entry _ o made =>
    ActionRule.row_of_action placed made
  have manys : rowsAt owner.site
      (rules.hasMany.flatMap fun (name, rule) => hasMany scope owner name rule) =
      rules.hasMany.flatMap fun (name, rule) => rule.rows name := by
    refine rowsAt_flatMap fun entry listed => rowsAt_hasMany placed fun step member => ?_
    exact possible.left.left.right step (List.mem_flatMap.mpr ⟨entry, listed, member⟩)
  have somes := rowsAt_map_named possible.left.right fun entry _ o made => by
    obtain ⟨target, found, made⟩ := bind_ok.mp made
    rw [Row.of_reference _ made, ← placed.name_of_lookup found]
  have ones := rowsAt_map_named possible.right fun entry _ o made => by
    obtain ⟨target, found, made⟩ := bind_ok.mp made
    rw [Row.of_singleReference _ made, ← placed.name_of_lookup found]
  simp only [hasSome, hasOne]
  rw [rowsAt_append, rowsAt_append, rowsAt_append, actions, manys, somes, ones]
  rfl

theorem site_of_container {rules : ContainerRules} :
    ∀ step ∈ container scope owner rules, step.site = owner.site := by
  intro step member
  simp only [container, List.mem_append] at member
  rcases member with ((acts | manys) | somes) | ones
  · obtain ⟨entry, _, rfl⟩ := List.mem_map.mp acts
    rfl
  · obtain ⟨entry, _, within⟩ := List.mem_flatMap.mp manys
    unfold hasMany at within
    split at within
    · rw [List.mem_singleton.mp within]
      rfl
    · rcases List.mem_append.mp within with listed | single
      · obtain ⟨call, _, rfl⟩ := List.mem_map.mp listed
        rfl
      · unfold singularSteps at single
        split at single
        · cases single
        · split at single
          · rw [List.mem_singleton.mp single]
            rfl
          · rcases List.mem_append.mp single with created | referred
            · obtain ⟨call, _, rfl⟩ := List.mem_map.mp created
              rfl
            · obtain ⟨build, _, rfl⟩ := List.mem_map.mp referred
              rfl
  · obtain ⟨entry, _, rfl⟩ := List.mem_map.mp somes
    rfl
  · obtain ⟨entry, _, rfl⟩ := List.mem_map.mp ones
    rfl

/-- The rows of a container at any site: all of them at that of its owner. -/
theorem rowsAt_container_site (placed : scope.Placed) {rules : ContainerRules} (site : Site)
    (possible : Possible (container scope owner rules)) :
    rowsAt site (container scope owner rules) = if owner.site = site then rules.rows else [] := by
  by_cases here : owner.site = site
  · subst here
    rw [if_pos rfl, rowsAt_container placed possible]
  · rw [if_neg here]
    exact rowsAt_elsewhere fun step member same => here ((site_of_container step member).symm.trans same)

end Plan

end ResourceGraph
