import ResourceGraph.Model.Compile
import ResourceGraph.Proofs.DocumentScope
import ResourceGraph.Proofs.LiteralSources
import ResourceGraph.Proofs.TargetForm
import ResourceGraph.Proofs.Wiring

/-!
What compiling can fail with. A document that is accepted but does not compile has a fault of
definition, as long as its numbers and expressions stay within the limits of what is read and
written: an index of a target can have too many digits, and so can a number in a path and a source
that is written as a text, and a path can be nested too deeply. Where the fault is of a kind that
lint looks for, lint has a remark about it: both go through the same rules of the document.
-/

namespace ResourceGraph

open Naming Outcome

variable {α β σ : Type}

/-- An index in the target is short enough to be read. -/
def Target.WithinLimits (expression : String) : Prop := Target.read expression ≠ .error .indexTooLong

/-- The path is read, or it is none. -/
def Path.WithinLimits (text : String) : Prop := ∀ m, Path.compile text ≠ .error (.misuse m)

/-- A source of the kind is written as a text: one that names an identifier or stands for a text is
made a text, and one that is no truth value is quoted by the message that refuses it. -/
def ProjectionKind.writesSource : ProjectionKind → Bool
  | identifier | string | boolean => true
  | dataMember | integer => false

/-- The target of the projection is short enough to be read, and its source to be written if it is. -/
structure ParamRule.WithinLimits (p : ParamRule) : Prop where
  target : Target.WithinLimits p.target
  source : p.kind.writesSource = true → p.source.isTooLong = false

/-- The projections of the request are within the limits, and each writes a literal. -/
structure RequestRule.WithinLimits (r : RequestRule) : Prop where
  params : ∀ p ∈ r.params, p.WithinLimits
  literal : r.Literal

def BuildRule.paths (r : BuildRule) : List String :=
  (r.identifiers.filter fun s => s.kind.isPath).map SourceRule.source ++ r.path.toList

def ActionRule.paths (r : ActionRule) : List String :=
  r.path.toList ++ r.resource.toList.flatMap BuildRule.paths

def HasManyRule.paths (r : HasManyRule) : List String :=
  ((r.enumerate.toList ++ r.create.toList).flatMap fun call => call.resource.paths) ++
    r.resource.toList.flatMap BuildRule.paths

def ContainerRules.paths (rules : ContainerRules) : List String :=
  (rules.actions.flatMap fun (_, rule) => rule.paths) ++
  (rules.hasMany.flatMap fun (_, rule) => rule.paths) ++
  (rules.hasSome.flatMap fun (_, rule) => rule.resource.paths) ++
  (rules.hasOne.flatMap fun (_, rule) => rule.resource.paths)

/-- All paths of a document that are read when it is compiled. -/
def Document.paths (d : Document) : List String :=
  d.service.paths ++ d.resources.flatMap fun (_, r) =>
    (r.load.toList.map fun rule => rule.path) ++ r.container.paths

/-- All projections and paths of the document are within the limits. -/
structure Document.WithinLimits (d : Document) : Prop where
  params : ∀ r ∈ d.requests, ∀ p ∈ r.params, p.WithinLimits
  paths : ∀ path ∈ d.paths, Path.WithinLimits path

/-- Whatever goes wrong is a fault of the definition. -/
def Definite (x : Except Failure α) : Prop := ∀ f, x = .error f → ∃ fault, f = .definition fault

/-- Lint looks for faults of this kind. -/
def DefinitionFault.isLinted : DefinitionFault → Bool
  | schema _ | unnamedType .. | unknownType .. | invalidTarget _ => true
  | _ => false

/-- The remark is about this fault. -/
inductive Remark.TellsOf : Remark → DefinitionFault → Prop
  | schema (finding : Finding) (findings : Nat) : TellsOf (.schema finding) (.schema findings)
  | target (label target : String) : TellsOf (.invalidTarget label target) (.invalidTarget target)
  | type (label owner rule type : String) :
      TellsOf (.unknownType label type) (.unknownType owner rule type)
  | subResource (resource owner rule child : String) :
    TellsOf (.unknownSubResource resource child) (.unknownType owner rule child)

/-- Whatever goes wrong is a fault of the definition, and one of the remarks is about it if lint
looks for faults of its kind. -/
def Accounted (remarks : List Remark) (x : Except Failure α) : Prop :=
  ∀ f, x = .error f → ∃ fault, f = .definition fault ∧
    (fault.isLinted = true → ∃ remark ∈ remarks, remark.TellsOf fault)

namespace Accounted

variable {remarks : List Remark}

theorem definite {x : Except Failure α} (accounted : Accounted remarks x) : Definite x := fun f failed =>
  let ⟨fault, same, _⟩ := accounted f failed
  ⟨fault, same⟩

theorem ok (a : α) : Accounted remarks (.ok a) := nofun

theorem pure (a : α) : Accounted remarks (pure a : Except Failure α) := nofun

theorem told {f : DefinitionFault} (remark : f.isLinted = true → ∃ remark ∈ remarks, remark.TellsOf f) :
    Accounted remarks (.error (.definition f) : Except Failure α) :=
  fun _ failed => ⟨f, (Except.error.inj failed).symm, remark⟩

theorem fault {f : DefinitionFault} (unseen : f.isLinted = false) :
    Accounted remarks (.error (.definition f) : Except Failure α) :=
  told fun seen => nomatch unseen.symm.trans seen

/-- A fault that quotes what is short enough to be written. -/
theorem quoting {fault : String → DefinitionFault} {given : Json} (fits : given.isTooLong = false)
    (unseen : ∀ shown, (fault shown).isLinted = false) :
    Accounted remarks (faultQuoting fault given : Except Failure α) := by
  unfold faultQuoting
  rw [written_of_fits fits]
  exact Accounted.fault (unseen _)

theorem bind {x : Except Failure α} {f : α → Except Failure β} (first : Accounted remarks x)
    (rest : ∀ a, x = .ok a → Accounted remarks (f a)) : Accounted remarks (x >>= f) := by
  cases x with
  | error failure =>
    intro failed same
    cases same
    exact first failure rfl
  | ok a => exact rest a rfl

theorem map {x : Except Failure α} {f : α → β} (accounted : Accounted remarks x) :
    Accounted remarks (x.map f) := by
  cases x with
  | error failure =>
    intro failed same
    cases same
    exact accounted failure rfl
  | ok a => exact nofun

theorem ite {x y : Except Failure α} {p : Prop} [Decidable p] (first : Accounted remarks x)
    (second : Accounted remarks y) :
    Accounted remarks (if p then x else y) := by
  split
  · exact first
  · exact second

theorem mapM {f : α → Except Failure β} {xs : List α} (each : ∀ x ∈ xs, Accounted remarks (f x)) :
    Accounted remarks (xs.mapM f) := by
  intro failure failed
  obtain ⟨x, member, one⟩ := error_of_mapM failed
  exact each x member failure one

private theorem foldlM {f : σ → α → Except Failure σ} {xs : List α}
    (each : ∀ x ∈ xs, ∀ s, Accounted remarks (f s x))
    (s : σ) : Accounted remarks (xs.foldlM f s) := by
  induction xs generalizing s with
  | nil => exact nofun
  | cons x xs ih =>
    rw [List.foldlM_cons]
    exact .bind (each x List.mem_cons_self s) fun t _ =>
      ih (fun y member => each y (List.mem_cons_of_mem x member)) t

end Accounted

/-! ## Limits -/

/-- The target of a member of an element, whose index is written with these digits. -/
def Target.indexed (digits : List Char) : String := String.ofList ("a[".toList ++ digits ++ "].b".toList)

/-- An index with too many digits is beyond the limits. -/
theorem Target.read_indexed {digits : List Char} (each : ∀ c ∈ digits, Text.isDigit c = true)
    (long : Number.digitLimit < digits.length) :
    Target.read (Target.indexed digits) = .error .indexTooLong := by
  have letter (c : Char) (named : Text.isWord c = true) : Text.Row Text.isWord [c] :=
    ⟨nofun, fun _ member => List.mem_singleton.mp member ▸ named⟩
  have full : digits ≠ [] := by
    rintro rfl
    exact Nat.not_lt_zero _ long
  have writes : Writes (indexed digits) (.elementMember "a" (Text.digitsValue digits) "b") digits :=
    ⟨_, .inl (by simp [indexed]),
      .elementMember (letter 'a' (by decide)) ⟨full, each⟩ (letter 'b' (by decide))⟩
  rw [read_of_writes writes, if_pos long]

/-! ## Remarks -/

variable {remarks : List Remark} {d : Document}

private theorem subset_of_flatMap {xs : List α} {x : α} {f : α → List β} {all : List β} (member : x ∈ xs)
    (within : xs.flatMap f ⊆ all) : f x ⊆ all :=
  fun _ inside => within (List.mem_flatMap.mpr ⟨x, member, inside⟩)

/-- The remarks name every target of the request that cannot be read. -/
theorem Lint.target_of_request {label : String} {r : RequestRule} (told : Lint.request label r ⊆ remarks)
    {p : ParamRule} (member : p ∈ r.params) (unknown : Target.read p.target = .error .unknownForm) :
    .invalidTarget label p.target ∈ remarks :=
  told (List.mem_filterMap.mpr ⟨p, member, by rw [unknown]⟩)

/-- The remarks name the type if the document does not have it. -/
def Remark.TellOfType (remarks : List Remark) (d : Document) (name : String) : Prop :=
  name ∉ Keyed.keys d.resources →
    ∃ remark ∈ remarks, ∀ owner rule, remark.TellsOf (.unknownType owner rule name)

theorem Lint.tellOfType {label name : String} (told : Lint.type d label name ⊆ remarks) :
    Remark.TellOfType remarks d name := by
  intro missing
  have unknown : Keyed.has d.resources name = false := by
    rw [Keyed.has, Keyed.get?_eq_none_iff.mpr missing]
    rfl
  refine ⟨.unknownType label name, told ?_, fun owner rule => .type label owner rule name⟩
  rw [Lint.type, unknown]
  exact List.mem_cons_self

/-- The parts of a resource that lint looks at for faults of kinds that it looks for. -/
theorem Lint.resource_parts {name : String} {rules : ResourceRules}
    (told : Lint.resource d name rules ⊆ remarks) :
    (∀ rule, rules.load = some rule →
      Lint.request (resourceLabel name ++ " load") rule.request ⊆ remarks) ∧
      (∀ rule, rules.subResources = some rule → Lint.subResources d name rule ⊆ remarks) ∧
      Lint.container d (resourceLabel name) rules.container ⊆ remarks := by
  simp only [Lint.resource, List.append_subset] at told
  obtain ⟨⟨⟨_, loaded⟩, children⟩, rules⟩ := told
  refine ⟨fun rule given => ?_, fun rule given => ?_, rules⟩
  · rw [given] at loaded
    exact (List.append_subset.mp loaded).2
  · rw [given] at children
    exact children

theorem Lint.tellOfChild {name : String} {rule : SubResourcesRule}
    (told : Lint.subResources d name rule ⊆ remarks) {child : String} (member : child ∈ rule.resources) :
    Remark.TellOfType remarks d child := by
  intro missing
  have unknown : Keyed.has d.resources child = false := by
    rw [Keyed.has, Keyed.get?_eq_none_iff.mpr missing]
    rfl
  refine ⟨.unknownSubResource name child, told ?_, fun owner rule => .subResource name owner rule child⟩
  exact List.mem_map.mpr ⟨child, List.mem_filter.mpr ⟨member, by rw [unknown]; rfl⟩, rfl⟩

/-! ## Parts of operations -/

theorem Path.WithinLimits.accounted {text : String} (limits : Path.WithinLimits text) :
    Accounted remarks (Path.compile text) := by
  intro failure failed
  unfold WithinLimits at limits
  unfold compile at failed limits
  split at failed
  · cases failed
  · rw [← Except.error.inj failed]
    exact ⟨_, rfl, nofun⟩
  · next long =>
    rw [long] at limits
    exact absurd rfl (limits _)
  · next deep =>
    rw [deep] at limits
    exact absurd rfl (limits _)

theorem Target.WithinLimits.accounted {expression : String} (limits : Target.WithinLimits expression)
    {label : String} (told : read expression = .error .unknownForm →
      .invalidTarget label expression ∈ remarks) :
    Accounted remarks (Projection.readTarget expression) := by
  unfold Projection.readTarget
  split
  · exact .ok _
  · next unknown => exact .told fun _ => ⟨_, told unknown, .target label expression⟩
  · next long => exact absurd long limits

namespace Projection

private theorem integerLiteral_accounted {given : Json} (literal : given.IsLiteral) :
    Accounted remarks (integerLiteral given) := by
  cases literal with
  | text s =>
    dsimp only [integerLiteral]
    split
    · exact .ok _
    · exact .quoting rfl fun _ => rfl
  | number n => exact .ok n
  | flag b => exact .quoting rfl fun _ => rfl

private theorem booleanLiteral_accounted {given : Json} (fits : given.isTooLong = false) :
    Accounted remarks (booleanLiteral given) := by
  have refused : Accounted remarks (faultQuoting .invalidBoolean given : Except Failure Bool) :=
    .quoting fits fun _ => rfl
  unfold booleanLiteral
  split
  · exact .ok _
  · exact .ok _
  · exact .ok _
  · exact .ite (.ok _) (.ite (.ok _) refused)
  · exact refused

private theorem sourceOf_accounted {kind : ProjectionKind} {given : Json} (literal : given.IsLiteral)
    (fits : kind.writesSource = true → given.isTooLong = false) :
    Accounted remarks (sourceOf kind given) := by
  cases kind with
  | identifier | dataMember => exact .ok _
  | string =>
    rw [sourceOf, written_of_fits (fits rfl)]
    exact .ok _
  | integer => exact .map (integerLiteral_accounted literal)
  | boolean => exact .map (booleanLiteral_accounted (fits rfl))

private theorem make_accounted {target : String} {kind : ProjectionKind} {given : Json}
    (limits : Target.WithinLimits target) {label : String}
    (told : Target.read target = .error .unknownForm → .invalidTarget label target ∈ remarks)
    (literal : given.IsLiteral) (fits : kind.writesSource = true → given.isTooLong = false) :
    Accounted remarks (make target kind given) :=
  .bind (sourceOf_accounted literal fits) fun _ _ => .bind (limits.accounted told) fun _ _ => .pure _

end Projection

theorem IdentifierSource.make_accounted {kind : SourceKind} {source target : String}
    (limits : kind.isPath = true → Path.WithinLimits source) :
    Accounted remarks (IdentifierSource.make kind source target) := by
  unfold make
  split
  · next path => exact .bind (limits path).accounted fun _ _ => .pure _
  · exact .ok _

theorem Builder.make_accounted {t : TypeSignature} {sources : List IdentifierSource}
    {path : Option String} (limits : ∀ text, path = some text → Path.WithinLimits text) :
    Accounted remarks (Builder.make (some t) sources path) := by
  refine .bind ?_ fun completed _ => ?_
  · exact .ite (.fault rfl) (.ite (.fault rfl) (.ok _))
  · dsimp only
    split
    · next data found =>
      refine .bind (Path.WithinLimits.accounted ?_) fun _ _ => .pure _
      unfold dataSource? at found
      split at found
      · next text given =>
        split at found
        · cases found
        · cases found
          exact limits text given
      · cases found
    · exact .pure _

namespace Operation

variable {kind : OperationKind} {parts : Parts}

private theorem needRequest_accounted : Accounted remarks (needRequest kind parts) := by
  unfold needRequest
  split
  · exact .ok _
  · exact .fault rfl

private theorem needBuilder_accounted : Accounted remarks (needBuilder kind parts) := by
  unfold needBuilder
  split
  · exact .ok _
  · exact .fault rfl

private theorem needPath_accounted : Accounted remarks (needPath kind parts) := by
  unfold needPath
  split
  · exact .ite (.fault rfl) (.ok _)
  · exact .fault rfl

theorem assemble_accounted : Accounted remarks (assemble kind parts) := by
  cases kind with
  | basic => exact .bind needRequest_accounted fun _ _ => .pure _
  | data | enumerateData | load =>
    exact .bind needRequest_accounted fun _ _ => .bind needPath_accounted fun _ _ => .pure _
  | resource =>
    exact .bind needRequest_accounted fun _ _ => .bind needBuilder_accounted fun _ _ => .pure _
  | enumerateResource =>
    exact .bind needRequest_accounted fun _ _ => .bind needBuilder_accounted fun _ _ =>
      .ite (.pure _) (.fault rfl)
  | reference => exact .bind needBuilder_accounted fun _ _ => .pure _

theorem make_accounted (limits : ∀ text, parts.path = some text → Path.WithinLimits text) :
    Accounted remarks (Operation.make kind parts) := by
  refine .bind assemble_accounted fun o built => ?_
  have path : o.path? = parts.path := (of_assemble built).2.2.2.1
  split
  · next text found =>
    refine .ite (.pure _) (.bind (Path.WithinLimits.accounted ?_) fun _ _ => .pure _)
    exact limits text (path ▸ found)
  · exact .pure _

end Operation

/-! ## Rules -/

/-- All of the paths are within the limits. -/
def PathsWithinLimits (paths : List String) : Prop := ∀ path ∈ paths, Path.WithinLimits path

theorem PathsWithinLimits.left {first second : List String}
    (limits : PathsWithinLimits (first ++ second)) :
    PathsWithinLimits first := fun path member => limits path (List.mem_append_left _ member)

theorem PathsWithinLimits.right {first second : List String}
    (limits : PathsWithinLimits (first ++ second)) :
    PathsWithinLimits second := fun path member => limits path (List.mem_append_right _ member)

theorem PathsWithinLimits.of_flatMap {xs : List α} {f : α → List String}
    (limits : PathsWithinLimits (xs.flatMap f)) {x : α} (member : x ∈ xs) : PathsWithinLimits (f x) :=
  fun path inside => limits path (List.mem_flatMap.mpr ⟨x, member, inside⟩)

namespace Scope

variable {scope : Scope} {owner : Owner} {target : TypeSignature}

theorem lookup_accounted (names : Keyed.keys scope = Keyed.keys d.resources) (rule : String)
    {name : String} (told : Remark.TellOfType remarks d name) :
    Accounted remarks (scope.lookup owner rule (some name)) := by
  unfold lookup
  dsimp only
  split
  · exact .ok _
  · next missing =>
    obtain ⟨remark, member, tells⟩ := told (names ▸ Keyed.get?_eq_none_iff.mp missing)
    exact .told fun _ => ⟨remark, member, tells owner.name rule⟩

private theorem given_accounted (operation : String) {rule : ParamRule} (limits : rule.WithinLimits) :
    Accounted remarks (given owner operation rule) := by
  unfold given
  split
  · next named =>
    refine .bind ?_ fun _ _ => .ite (.pure _) (.fault rfl)
    rw [written_of_fits (limits.source (by rw [named]; rfl))]
    exact .ok _
  · exact .ok _

/-- What is projected is the source as written, or the name of an identifier. -/
theorem source_of_given {operation : String} {rule : ParamRule} {source : Json}
    (found : given owner operation rule = .ok source) :
    source = rule.source ∨ ∃ name, source = .str name := by
  unfold given at found
  split at found
  · obtain ⟨_, _, found⟩ := bind_ok.mp found
    dsimp only at found
    split at found
    · exact .inr ⟨_, (pure_ok.mp found).symm⟩
    · cases found
  · exact .inl (Except.ok.inj found).symm

theorem request_accounted {rule : RequestRule} (limits : rule.WithinLimits) {label : String}
    (told : Lint.request label rule ⊆ remarks) : Accounted remarks (request owner rule) := by
  refine .bind (.mapM fun p member => ?_) fun _ _ => .ite (.fault rfl) (.ok _)
  have within := limits.params p member
  refine .bind (given_accounted _ within) fun source found => ?_
  have written := Lint.target_of_request told member
  rcases source_of_given found with rfl | ⟨name, rfl⟩
  · exact Projection.make_accounted within.target written (limits.literal p member) within.source
  · exact Projection.make_accounted within.target written (.text name) fun _ => rfl

theorem checkSources_accounted (sources : List IdentifierSource) :
    Accounted remarks (checkSources owner sources) := by
  induction sources with
  | nil => exact .ok _
  | cons s rest ih => exact .ite (.fault rfl) ih

theorem builder_accounted {rule : BuildRule} (limits : PathsWithinLimits rule.paths) :
    Accounted remarks (builder owner target rule) := by
  refine .bind (.mapM fun s member => ?_) fun sources _ => ?_
  · refine IdentifierSource.make_accounted fun path => ?_
    have listed : s.source ∈ rule.paths :=
      List.mem_append_left _ (List.mem_map.mpr ⟨s, List.mem_filter.mpr ⟨member, path⟩, rfl⟩)
    have plain : s.kind ≠ .identifier := fun same => by simp [same, SourceKind.isPath] at path
    split
    · next same => exact absurd same plain
    · exact limits s.source listed
  · refine .bind (checkSources_accounted sources) fun _ _ => Builder.make_accounted fun text same => ?_
    exact limits text (List.mem_append_right _ (by simp [same]))

private theorem referenceBuilder_accounted (name : String) {rule : BuildRule}
    (limits : PathsWithinLimits rule.paths) :
    Accounted remarks (referenceBuilder owner name target rule) :=
  .bind (builder_accounted limits) fun _ _ => .ite (.fault rfl) (.pure _)

private theorem action_accounted (names : Keyed.keys scope = Keyed.keys d.resources) (name : String)
    {rule : ActionRule} (asked : rule.request.WithinLimits) (limits : PathsWithinLimits rule.paths)
    (typed : rule.Typed) {label : String} (told : Lint.action d label rule ⊆ remarks) :
    Accounted remarks (scope.action owner name rule) := by
  obtain ⟨requested, building⟩ := List.append_subset.mp told
  refine .bind (request_accounted asked requested) fun call _ => ?_
  split
  · next _ build written =>
    have built : PathsWithinLimits build.paths := limits.right.of_flatMap (by simp [written])
    obtain ⟨type, named⟩ := Option.ne_none_iff_exists'.mp (typed build written)
    rw [written, Option.bind_some, named] at building
    rw [named]
    refine .bind (lookup_accounted names _ (Lint.tellOfType building)) fun target _ =>
      .bind (builder_accounted built) fun made _ => ?_
    exact Operation.make_accounted (by simp)
  · next path _ written =>
    refine Operation.make_accounted fun text same => limits.left text ?_
    rw [written, ← Option.some.inj same]
    exact List.mem_cons_self
  · exact Operation.make_accounted (by simp)

private theorem load_accounted {rule : LoadRule} (asked : rule.request.WithinLimits)
    (limits : Path.WithinLimits rule.path) {label : String}
    (told : Lint.request label rule.request ⊆ remarks) : Accounted remarks (load owner rule) :=
  .bind (request_accounted asked told) fun _ _ =>
    Operation.make_accounted fun _ same => Option.some.inj same ▸ limits

private theorem enumeration_accounted (name : String) {rule : CallRule}
    (asked : rule.request.WithinLimits) (limits : PathsWithinLimits rule.resource.paths)
    {label : String} (told : Lint.request label rule.request ⊆ remarks) :
    Accounted remarks (enumeration owner name target rule) :=
  .bind (builder_accounted limits) fun _ _ =>
    .ite (.bind (request_accounted asked told) fun _ _ => Operation.make_accounted (by simp))
      (.fault rfl)

private theorem creation_accounted {rule : CallRule} (asked : rule.request.WithinLimits)
    (limits : PathsWithinLimits rule.resource.paths) {label : String}
    (told : Lint.request label rule.request ⊆ remarks) :
    Accounted remarks (creation owner target rule) :=
  .bind (request_accounted asked told) fun _ _ => .bind (builder_accounted limits) fun _ _ =>
    Operation.make_accounted (by simp)

private theorem reference_accounted (name : String) {rule : BuildRule}
    (limits : PathsWithinLimits rule.paths) :
    Accounted remarks (reference owner name target rule) :=
  .bind (referenceBuilder_accounted name limits) fun _ _ => Operation.make_accounted (by simp)

private theorem singleReference_accounted (name : String) {rule : BuildRule}
    (limits : PathsWithinLimits rule.paths) :
    Accounted remarks (singleReference owner name target rule) :=
  .bind (referenceBuilder_accounted name limits) fun _ _ =>
    .ite (.fault rfl) (Operation.make_accounted (by simp))

end Scope

/-! ## Plans -/

/-- The step can be taken, or what prevents it is accounted for. -/
def Step.Accounted (remarks : List Remark) (step : Step) : Prop :=
  ResourceGraph.Accounted remarks step.attachment

namespace Plan

variable {scope : Scope} {owner : Owner} {target : TypeSignature}

theorem named_accounted (name : String) {made : Except Failure Operation}
    (accounted : Accounted remarks made) : (named owner name made).Accounted remarks := accounted.map

private theorem stop_accounted {fault : Failure} {x : Except Failure α} (accounted : Accounted remarks x)
    (failed : x = .error fault) : (stop owner fault).Accounted remarks := by
  obtain ⟨f, rfl, tells⟩ := accounted fault failed
  exact .told tells

private theorem related_accounted (sources : List IdentifierSource) :
    Accounted remarks (related target sources) :=
  .bind (Builder.make_accounted (by simp)) fun _ _ => Operation.make_accounted (by simp)

/-- The calls of a plural association. -/
theorem hasMany_accounted (names : Keyed.keys scope = Keyed.keys d.resources) {name : String}
    {rule : HasManyRule}
    (asked : ∀ call ∈ rule.enumerate.toList ++ rule.create.toList, call.request.WithinLimits)
    (limits : PathsWithinLimits rule.paths) {label : String}
    (told : Lint.hasMany d label rule ⊆ remarks) :
    ∀ step ∈ hasMany scope owner name rule, step.Accounted remarks := by
  obtain ⟨typed, requested⟩ := List.append_subset.mp told
  have calls : ∀ call ∈ rule.enumerate.toList ++ rule.create.toList,
      PathsWithinLimits call.resource.paths := fun call member => limits.left.of_flatMap member
  have builds : ∀ build ∈ rule.resource.toList, PathsWithinLimits build.paths :=
    fun build member => limits.right.of_flatMap member
  have tells : ∀ call ∈ rule.enumerate.toList ++ rule.create.toList,
      Lint.request label call.request ⊆ remarks :=
    fun call member => (subset_of_flatMap member requested :)
  intro step member
  unfold hasMany at member
  split at member
  · next fault failed =>
    rw [List.mem_singleton.mp member]
    exact stop_accounted (Scope.lookup_accounted names _ (Lint.tellOfType typed)) failed
  · next target _ =>
    rcases List.mem_append.mp member with listed | single
    · obtain ⟨call, given, rfl⟩ := List.mem_map.mp listed
      have one := List.mem_append_left rule.create.toList given
      exact named_accounted _ (Scope.enumeration_accounted name (asked call one) (calls call one)
        (tells call one))
    · unfold singularSteps at single
      split at single
      · cases single
      · split at single
        · rw [List.mem_singleton.mp single]
          exact .fault rfl
        · rcases List.mem_append.mp single with created | referred
          · obtain ⟨call, given, rfl⟩ := List.mem_map.mp created
            have one := List.mem_append_right rule.enumerate.toList given
            exact named_accounted _ (Scope.creation_accounted (asked call one) (calls call one)
              (tells call one))
          · obtain ⟨build, given, rfl⟩ := List.mem_map.mp referred
            exact named_accounted _ (Scope.reference_accounted name (builds build given))

private theorem container_accounted (names : Keyed.keys scope = Keyed.keys d.resources)
    {rules : ContainerRules} (asked : ∀ r ∈ rules.requests, r.WithinLimits)
    (limits : PathsWithinLimits rules.paths) (typed : rules.Typed) {label : String}
    (told : Lint.container d label rules ⊆ remarks) :
    ∀ step ∈ container scope owner rules, step.Accounted remarks := by
  simp only [Lint.container, List.append_subset] at told
  obtain ⟨⟨⟨ofActs, ofManys⟩, ofSomes⟩, ofOnes⟩ := told
  intro step member
  simp only [container, List.mem_append] at member
  rcases member with ((acts | manys) | somes) | ones
  · obtain ⟨entry, given, rfl⟩ := List.mem_map.mp acts
    have own : entry.2.request ∈ rules.requests :=
      List.mem_append_left _ (List.mem_map.mpr ⟨entry, given, rfl⟩)
    exact named_accounted _ (Scope.action_accounted names _ (asked _ own)
      (limits.left.left.left.of_flatMap given) (typed entry given)
      (subset_of_flatMap given ofActs :))
  · obtain ⟨entry, given, within⟩ := List.mem_flatMap.mp manys
    refine hasMany_accounted names (fun call one => asked _ ?_) (limits.left.left.right.of_flatMap given)
      (subset_of_flatMap given ofManys :) step within
    exact List.mem_append_right _
      (List.mem_flatMap.mpr ⟨entry, given, List.mem_map.mpr ⟨call, one, rfl⟩⟩)
  · obtain ⟨entry, given, rfl⟩ := List.mem_map.mp somes
    have built : PathsWithinLimits entry.2.resource.paths := limits.left.right.of_flatMap given
    have named := Lint.tellOfType (subset_of_flatMap given ofSomes :)
    exact named_accounted _ (.bind (Scope.lookup_accounted names _ named) fun _ _ =>
      Scope.reference_accounted _ built)
  · obtain ⟨entry, given, rfl⟩ := List.mem_map.mp ones
    have built : PathsWithinLimits entry.2.resource.paths := limits.right.of_flatMap given
    have named := Lint.tellOfType (subset_of_flatMap given ofOnes :)
    exact named_accounted _ (.bind (Scope.lookup_accounted names _ named) fun _ _ =>
      Scope.singleReference_accounted _ built)

private theorem child_accounted (names : Keyed.keys scope = Keyed.keys d.resources)
    {parent : TypeSignature} {shared : Keyed String} {name : String}
    (told : Remark.TellOfType remarks d name) :
    ∀ step ∈ child scope parent shared name, step.Accounted remarks := by
  intro step member
  unfold child at member
  split at member
  · next fault failed =>
    rw [List.mem_singleton.mp member]
    exact stop_accounted (Scope.lookup_accounted names _ told) failed
  · rcases List.mem_cons.mp member with rfl | member
    · refine named_accounted _ (.bind (Scope.checkSources_accounted _) fun _ _ => ?_)
      exact .bind (Scope.checkSources_accounted _) fun _ _ => related_accounted _
    · rw [List.mem_singleton.mp member]
      exact named_accounted _ (related_accounted _)

/-- Every step of a plan can be taken, or is a fault of the definition that lint has a remark about. -/
theorem ofDocument_accounted (asked : ∀ r ∈ d.requests, r.WithinLimits)
    (limits : PathsWithinLimits d.paths) (typed : d.Typed) (service : String)
    (names : Keyed.keys scope = Keyed.keys d.resources) :
    ∀ step ∈ ofDocument d service scope, step.Accounted (Lint.document d) := by
  have written : ∀ {side}, side ∈ (scope.map Prod.snd).zip (d.resources.map Prod.snd) →
      ∃ name, (name, side.2) ∈ d.resources := by
    intro side both
    obtain ⟨⟨name, _⟩, entry, rfl⟩ := List.mem_map.mp (List.of_mem_zip both).2
    exact ⟨name, entry⟩
  have askedOf : ∀ {name rules}, (name, rules) ∈ d.resources →
      ∀ r ∈ (rules.load.toList.map fun rule => rule.request) ++ rules.container.requests,
        r.WithinLimits :=
    fun there r member => asked r (List.mem_append_right _ (List.mem_flatMap.mpr ⟨_, there, member⟩))
  have limitsOf : ∀ {name rules}, (name, rules) ∈ d.resources →
      PathsWithinLimits ((rules.load.toList.map fun rule => rule.path) ++ rules.container.paths) :=
    fun there => limits.right.of_flatMap there
  have told : ∀ {name rules}, (name, rules) ∈ d.resources →
      Lint.resource d name rules ⊆ Lint.document d := fun there remark inside =>
    List.mem_append_right _ (List.mem_flatMap.mpr ⟨_, there, inside⟩)
  intro step member
  simp only [ofDocument, List.mem_append] at member
  rcases member with ((loads | served) | owned) | shared
  · obtain ⟨side, both, loads⟩ := List.mem_flatMap.mp loads
    obtain ⟨rule, given, rfl⟩ := List.mem_map.mp loads
    obtain ⟨name, there⟩ := written both
    have requested := (Lint.resource_parts (told there)).1 rule (Option.mem_toList.mp given)
    refine .map (Scope.load_accounted ?_ ?_ requested)
    · exact askedOf there _ (List.mem_append_left _ (List.mem_map.mpr ⟨rule, given, rfl⟩))
    · exact limitsOf there _ (List.mem_append_left _ (List.mem_map.mpr ⟨rule, given, rfl⟩))
  · exact container_accounted names (fun r own => asked r (List.mem_append_left _ own)) limits.left
      typed.service (List.subset_append_left _ _) step served
  · obtain ⟨side, both, owned⟩ := List.mem_flatMap.mp owned
    obtain ⟨name, there⟩ := written both
    exact container_accounted names (fun r own => askedOf there r (List.mem_append_right _ own))
      (limitsOf there).right (typed.resources _ there)
      (Lint.resource_parts (told there)).2.2 step owned
  · obtain ⟨side, both, families⟩ := List.mem_flatMap.mp shared
    obtain ⟨family, given, siblings⟩ := List.mem_flatMap.mp families
    obtain ⟨child, listed, steps⟩ := List.mem_flatMap.mp siblings
    obtain ⟨name, there⟩ := written both
    have declared := (Lint.resource_parts (told there)).2.1 family (Option.mem_toList.mp given)
    exact child_accounted names (Lint.tellOfChild declared listed) step steps

end Plan

/-! ## Compiling -/

namespace ResourceType

theorem addIdentifier_accounted (t : ResourceType) (name : String) :
    Accounted remarks (t.addIdentifier name) :=
  .ite (.fault rfl) (.ite (.fault rfl) (.ite (.fault rfl) (.ok _)))

private theorem setLoad_accounted (t : ResourceType) (o : Operation) : Accounted remarks (t.setLoad o) :=
  .ite (.fault rfl) (.ite (.fault rfl) (.ite (.fault rfl) (.ok _)))

private theorem addOperation_accounted (t : ResourceType) (name : String) (o : Operation) :
    Accounted remarks (t.addOperation name o) :=
  .ite (.fault rfl) (.ite (.fault rfl) (.ite (.fault rfl) (.ok _)))

end ResourceType

namespace Draft

theorem change_accounted (d : Draft) (site : Site) {f : ResourceType → Except Failure ResourceType}
    (each : ∀ t, Accounted remarks (f t)) : Accounted remarks (d.change site f) := by
  unfold change
  split
  · exact .bind (each _) fun _ _ => .pure _
  · split
    · exact .bind (each _) fun _ _ => .pure _
    · exact .ok _

theorem attachTo_accounted (t : ResourceType) (a : Attachment) : Accounted remarks (attachTo t a) := by
  cases a with
  | load o => exact t.setLoad_accounted o
  | operation name o => exact t.addOperation_accounted name o

private theorem take_accounted (d : Draft) {step : Step} (accounted : step.Accounted remarks) :
    Accounted remarks (d.take step) :=
  .bind accounted fun a _ => change_accounted d _ fun t => attachTo_accounted t a

theorem expose_accounted (d : Draft) (type : TypeSignature) : Accounted remarks (d.expose type) :=
  .ite (.pure _) (.bind (Plan.related_accounted _) fun o _ =>
    change_accounted d _ fun t => t.addOperation_accounted _ o)

end Draft

/-- A document whose requests and paths are within limits compiles, or has a fault of definition
that lint has a remark about if it looks for such faults. -/
theorem Model.ofDocument_accounted (asked : ∀ r ∈ d.requests, r.WithinLimits)
    (limits : PathsWithinLimits d.paths) (typed : d.Typed) (service : String) (factory : Option Nat) :
    Accounted (Lint.document d) (ofDocument d service factory) := by
  refine .bind (.mapM fun entry _ => .bind ?_ fun _ _ => .pure _) fun bares made => ?_
  · exact .foldlM (fun name _ t => t.addIdentifier_accounted name) _
  · have planned := Plan.ofDocument_accounted asked limits typed service (scope_of_bareTypes made).keys
    refine .bind (.foldlM (fun step member e => e.take_accounted (planned step member)) _) fun _ _ => ?_
    exact .bind (.foldlM (fun type _ e => e.expose_accounted type) _) fun _ _ => .pure _

/-- A document that was read and stays within the limits compiles, or has a fault of definition that
is accounted for. -/
theorem Model.ofDocument_accounted_of_read {given : Json} (read : Document.read given = .accepted d)
    (limits : d.WithinLimits) (service : String) (factory : Option Nat) :
    Accounted (Lint.document d) (ofDocument d service factory) :=
  ofDocument_accounted
    (fun r member => ⟨limits.params r member, Document.literal_of_read read r member⟩)
    limits.paths (Document.typed_of_read read) service factory

/-- A document that is accepted and stays within the limits compiles, or has a fault of definition;
so does one that is refused. -/
theorem Model.compile_definite {given : Json}
    (limits : ∀ d, Document.read given = .accepted d → d.WithinLimits) (service : String)
    (factory : Option Nat) : Definite (compile given service factory) := by
  unfold compile
  split
  · next d read => exact (ofDocument_accounted_of_read read (limits d read) service factory).definite
  · exact fun _ failed => ⟨_, (Except.error.inj failed).symm⟩

/-- Something in the document is beyond what is read or written at all: an index of a target, a
source that is written or a number in a path has too many digits, or a path is nested too deeply. -/
def Document.ExceedsLimits (d : Document) : Prop :=
  (∃ r ∈ d.requests, ∃ p ∈ r.params, Target.read p.target = .error .indexTooLong ∨
    p.kind.writesSource = true ∧ p.source.isTooLong = true) ∨
  ∃ path ∈ d.paths, Path.Expr.ofText path = .error .numberTooLong ∨
    Path.Expr.ofText path = .error .tooDeep

theorem Path.exceeded_of_misuse {text : String} {m : Misuse}
    (failed : Path.compile text = .error (.misuse m)) :
    Path.Expr.ofText text = .error .numberTooLong ∨ Path.Expr.ofText text = .error .tooDeep := by
  unfold compile at failed
  split at failed
  · cases failed
  · cases failed
  · next long => exact .inl long
  · next deep => exact .inr deep

theorem Document.withinLimits_or_exceeds (d : Document) : d.WithinLimits ∨ d.ExceedsLimits := by
  by_cases exceeds : d.ExceedsLimits
  · exact .inr exceeds
  · refine .inl ⟨fun r member p projected => ⟨fun long => ?_, fun writes => ?_⟩,
      fun path member m failed => ?_⟩
    · exact exceeds (.inl ⟨r, member, p, projected, .inl long⟩)
    · refine Bool.eq_false_iff.mpr fun long => ?_
      exact exceeds (.inl ⟨r, member, p, projected, .inr ⟨writes, long⟩⟩)
    · exact exceeds (.inr ⟨path, member, Path.exceeded_of_misuse failed⟩)

/-- **Compiling answers with a model or a fault of definition.** Whatever is given as a document and
whatever the service is called, nothing else comes of it, unless the document is accepted and
exceeds the limits of what is read and written. -/
theorem Model.compile_answers (given : Json) (service : String) (factory : Option Nat) :
    (∃ m, compile given service factory = .ok m) ∨
      (∃ fault, compile given service factory = .error (.definition fault)) ∨
      ∃ d, Document.read given = .accepted d ∧ d.ExceedsLimits := by
  by_cases exceeds : ∃ d, Document.read given = .accepted d ∧ d.ExceedsLimits
  · exact .inr (.inr exceeds)
  · have limits : ∀ d, Document.read given = .accepted d → d.WithinLimits := fun d read =>
      d.withinLimits_or_exceeds.resolve_right fun beyond => exceeds ⟨d, read, beyond⟩
    cases answer : compile given service factory with
    | ok m => exact .inl ⟨m, rfl⟩
    | error f =>
      obtain ⟨fault, rfl⟩ := compile_definite limits service factory f answer
      exact .inr (.inl ⟨fault, rfl⟩)

end ResourceGraph
