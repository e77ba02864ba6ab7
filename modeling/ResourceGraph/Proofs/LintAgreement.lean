import Mathlib.Data.List.Nodup
import ResourceGraph.Proofs.CompileFaults
import ResourceGraph.Proofs.Findings
import ResourceGraph.Proofs.OperationTable

/-!
Lint and the compiler agree. They go through a document independently of each other: lint looks at
every rule and gathers all remarks, and the compiler stops at its first fault. What lint has a
remark about does not compile, apart from its two remarks about style; and a fault of a kind that
lint looks for is always among its remarks.
-/

namespace ResourceGraph

open Naming Outcome Plan

/-- The remark is about something that does not compile, and not about style. -/
def Remark.isSerious : Remark → Bool
  | prefixedIdentifier .. | loadWithoutShape _ => false
  | _ => true

variable {d : Document} {scope : Scope} {owner : Owner} {target : TypeSignature}

/-! ## What compiles had its requests made -/

/-- A request was made from the rule. -/
def RequestRule.Made (r : RequestRule) : Prop := ∃ owner made, Scope.request owner r = .ok made

/-- All targets of a request that was made could be read. -/
theorem RequestRule.Made.read {r : RequestRule} (made : r.Made) {p : ParamRule} (member : p ∈ r.params) :
    ∃ target, Target.read p.target = .ok target := by
  obtain ⟨owner, request, done⟩ := made
  obtain ⟨projections, each, _⟩ := bind_ok.mp done
  obtain ⟨place, there⟩ := List.mem_iff_getElem?.mp member
  obtain ⟨projection, _, one⟩ := (getElem_of_mapM each place).2 p there
  obtain ⟨_, _, one⟩ := bind_ok.mp one
  obtain ⟨_, _, one⟩ := bind_ok.mp one
  obtain ⟨_, read, _⟩ := bind_ok.mp one
  unfold Projection.readTarget at read
  split at read
  · next target found => exact ⟨target, found⟩
  · cases read
  · cases read

namespace Plan

/-- Each rule has a step, which could not be taken without its operation. -/
theorem made_of_possible {α : Type} {rules : Keyed α} {made : String × α → Except Failure Operation}
    (possible : Possible (rules.map fun entry => named owner (snakeCase entry.1) (made entry)))
    {entry : String × α} (member : entry ∈ rules) : ∃ o, made entry = .ok o := by
  obtain ⟨_, attached⟩ := possible _ (List.mem_map_of_mem member)
  obtain ⟨o, done, _⟩ := map_ok.mp attached
  exact ⟨o, done⟩

/-- The creation of a member is planned as soon as there is a rule for it. -/
theorem created_of_possible {name : String} {h : HasManyRule}
    (possible : Possible (singularSteps owner name target h)) {call : CallRule}
    (given : h.create = some call) :
    ∃ o, Scope.creation owner target call = .ok o := by
  unfold singularSteps at possible
  rw [if_neg (by simp [given])] at possible
  split at possible
  · exact absurd possible not_possible_stop
  · obtain ⟨_, attached⟩ := possible.left _ (List.mem_map_of_mem (Option.mem_toList.mpr given))
    obtain ⟨o, made, _⟩ := map_ok.mp attached
    exact ⟨o, made⟩

private theorem requests_of_hasMany {name : String} {h : HasManyRule}
    (possible : Possible (hasMany scope owner name h)) :
    ∀ call ∈ h.enumerate.toList ++ h.create.toList, call.request.Made := by
  unfold hasMany at possible
  split at possible
  · exact absurd possible not_possible_stop
  · intro call member
    rcases List.mem_append.mp member with listed | created
    · obtain ⟨_, attached⟩ := possible.left _ (List.mem_map_of_mem listed)
      obtain ⟨o, made, _⟩ := map_ok.mp attached
      obtain ⟨builder, _, made⟩ := bind_ok.mp made
      split at made
      · obtain ⟨request, requested, _⟩ := bind_ok.mp made
        exact ⟨owner, request, requested⟩
      · cases made
    · obtain ⟨o, made⟩ := created_of_possible possible.right (Option.mem_toList.mp created)
      obtain ⟨request, requested, _⟩ := bind_ok.mp made
      exact ⟨owner, request, requested⟩

private theorem requests_of_container {rules : ContainerRules}
    (possible : Possible (container scope owner rules)) :
    ∀ r ∈ rules.requests, r.Made := by
  intro r member
  rcases List.mem_append.mp member with acts | manys
  · obtain ⟨entry, given, rfl⟩ := List.mem_map.mp acts
    obtain ⟨o, done⟩ := made_of_possible possible.left.left.left given
    obtain ⟨request, requested, _⟩ := bind_ok.mp done
    exact ⟨owner, request, requested⟩
  · obtain ⟨entry, given, within⟩ := List.mem_flatMap.mp manys
    obtain ⟨call, one, rfl⟩ := List.mem_map.mp within
    exact requests_of_hasMany (fun step inside =>
      possible.left.left.right step (List.mem_flatMap.mpr ⟨entry, given, inside⟩)) call one

private theorem request_of_load {rule : Option LoadRule}
    (possible : Possible (rule.toList.map (load owner)))
    {given : LoadRule} (there : given ∈ rule.toList) : given.request.Made := by
  obtain ⟨_, attached⟩ := possible _ (List.mem_map_of_mem there)
  obtain ⟨_, made, _⟩ := map_ok.mp attached
  obtain ⟨request, requested, _⟩ := bind_ok.mp made
  exact ⟨owner, request, requested⟩

/-- The steps of one type of the document: its load, its rules and its children. -/
theorem possible_of_type {service : String} (same : Scope.Of d scope)
    (possible : Possible (ofDocument d service scope)) {name : String} {rules : ResourceRules}
    (there : (name, rules) ∈ d.resources) :
    ∃ type : TypeSignature, Possible (rules.load.toList.map (load type.owner)) ∧
      Possible (container scope type.owner rules.container) ∧
      Possible (rules.subResources.toList.flatMap (children scope type)) := by
  obtain ⟨place, found⟩ := List.mem_iff_getElem?.mp there
  have side : ((⟨⟨place, name⟩, rules.identifiers.map snakeCase⟩ : TypeSignature), rules) ∈
      (scope.map Prod.snd).zip (d.resources.map Prod.snd) := by
    rw [same.sides]
    exact List.mem_map.mpr ⟨((name, rules), place), List.mk_mem_zipIdx_iff_getElem?.mpr found, rfl⟩
  have steps : ∀ {f : TypeSignature × ResourceRules → List Step},
      Possible (((scope.map Prod.snd).zip (d.resources.map Prod.snd)).flatMap f) →
        Possible (f (_, rules)) :=
    fun all step within => all step (List.mem_flatMap.mpr ⟨_, side, within⟩)
  exact ⟨_, steps possible.left.left.left, steps possible.left.right, steps possible.right⟩

/-- Every request of a document whose plan was carried out was made. -/
theorem requests_of_document {service : String} (same : Scope.Of d scope)
    (possible : Possible (ofDocument d service scope)) : ∀ r ∈ d.requests, r.Made := by
  intro r member
  rcases List.mem_append.mp member with own | ofTypes
  · exact requests_of_container possible.left.left.right r own
  · obtain ⟨⟨name, rules⟩, there, within⟩ := List.mem_flatMap.mp ofTypes
    obtain ⟨type, loads, owned, _⟩ := possible_of_type same possible there
    rcases List.mem_append.mp within with loaded | asked
    · obtain ⟨rule, given, rfl⟩ := List.mem_map.mp loaded
      exact request_of_load loads given
    · exact requests_of_container owned r asked

end Plan

/-! ## What compiles leaves no serious remarks -/

namespace Lint

variable {label name rule : String}

theorem request_of_made {r : RequestRule} (made : r.Made) : request label r = [] := by
  refine List.filterMap_eq_nil_iff.mpr fun p member => ?_
  obtain ⟨target, read⟩ := made.read member
  rw [read]

private theorem has_of_lookup (names : Keyed.keys scope = Keyed.keys d.resources)
    (found : scope.lookup owner rule (some name) = .ok target) : Keyed.has d.resources name = true := by
  unfold Scope.lookup at found
  dsimp only at found
  split at found
  · next type there =>
    refine Keyed.has_iff.mpr (names ▸ ?_)
    exact List.mem_map.mpr ⟨_, Keyed.mem_of_get? there, rfl⟩
  · cases found

theorem type_of_lookup (names : Keyed.keys scope = Keyed.keys d.resources)
    (found : scope.lookup owner rule (some name) = .ok target) : type d label name = [] := by
  rw [type, if_pos (has_of_lookup names found)]

private theorem action_of_made (names : Keyed.keys scope = Keyed.keys d.resources) {a : ActionRule}
    {o : Operation}
    (done : scope.action owner name a = .ok o) : action d label a = [] := by
  obtain ⟨call, requested, done⟩ := bind_ok.mp done
  rw [action, request_of_made ⟨owner, call, requested⟩, List.nil_append]
  cases built : a.resource with
  | none => rfl
  | some build =>
    rw [built] at done
    obtain ⟨target, found, _⟩ := bind_ok.mp done
    rw [Option.bind_some]
    cases named : build.type with
    | none => rfl
    | some type =>
      rw [named] at found
      exact type_of_lookup names found

private theorem hasMany_of_possible (names : Keyed.keys scope = Keyed.keys d.resources) {h : HasManyRule}
    (possible : Possible (Plan.hasMany scope owner name h)) : hasMany d label h = [] := by
  have made := requests_of_hasMany possible
  unfold Plan.hasMany at possible
  split at possible
  · exact absurd possible not_possible_stop
  · next target found =>
    rw [hasMany, type_of_lookup names found, List.nil_append]
    exact List.flatMap_eq_nil_iff.mpr fun call member => request_of_made (made call member)

private theorem container_of_possible (names : Keyed.keys scope = Keyed.keys d.resources)
    {rules : ContainerRules}
    (possible : Possible (Plan.container scope owner rules)) : container d label rules = [] := by
  have acts := possible.left.left.left
  have manys := possible.left.left.right
  have somes := possible.left.right
  have ones := possible.right
  simp only [container, List.append_eq_nil_iff, List.flatMap_eq_nil_iff]
  refine ⟨⟨⟨fun entry member => ?_, fun entry member => ?_⟩, fun entry member => ?_⟩,
    fun entry member => ?_⟩
  · obtain ⟨o, done⟩ := made_of_possible acts member
    exact action_of_made names done
  · exact hasMany_of_possible names fun step within =>
      manys step (List.mem_flatMap.mpr ⟨entry, member, within⟩)
  · obtain ⟨o, done⟩ := made_of_possible somes member
    obtain ⟨_, found, _⟩ := bind_ok.mp done
    exact type_of_lookup names found
  · obtain ⟨o, done⟩ := made_of_possible ones member
    obtain ⟨_, found, _⟩ := bind_ok.mp done
    exact type_of_lookup names found

private theorem subResources_of_possible (names : Keyed.keys scope = Keyed.keys d.resources)
    {parent : TypeSignature} {family : SubResourcesRule}
    (possible : Possible (Plan.children scope parent family)) : subResources d name family = [] := by
  refine List.map_eq_nil_iff.mpr (List.filter_eq_nil_iff.mpr fun child member => ?_)
  have steps : Possible (Plan.child scope parent (sharedIdentifiers family) child) :=
    fun step within => possible step (List.mem_flatMap.mpr ⟨child, member, within⟩)
  unfold Plan.child at steps
  split at steps
  · exact absurd steps not_possible_stop
  · next found => simp [has_of_lookup names found]

/-- A type without serious remarks: its identifiers are distinct, and all of its rules were carried
out. -/
theorem resource_of_possible (names : Keyed.keys scope = Keyed.keys d.resources) {rules : ResourceRules}
    {type : TypeSignature} (distinct : rules.identifiers.Nodup)
    (loads : Possible (rules.load.toList.map (Plan.load type.owner)))
    (owned : Possible (Plan.container scope type.owner rules.container))
    (shared : Possible (rules.subResources.toList.flatMap (children scope type))) :
    ∀ remark ∈ resource d name rules, remark.isSerious = false := by
  rw [resource, if_pos distinct, List.nil_append, container_of_possible names owned, List.append_nil]
  intro remark member
  rcases List.mem_append.mp member with listed | children
  · rcases List.mem_append.mp listed with styled | loaded
    · obtain ⟨identifier, _, rfl⟩ := List.mem_map.mp styled
      rfl
    · split at loaded
      · next rule given =>
        have made := request_of_load loads (Option.mem_toList.mpr given)
        rw [load, request_of_made made, List.append_nil] at loaded
        split at loaded
        · rw [List.mem_singleton.mp loaded]
          rfl
        · cases loaded
      · cases loaded
  · split at children
    · next family given =>
      have steps : Possible (Plan.children scope type family) := fun step within =>
        shared step (List.mem_flatMap.mpr ⟨family, Option.mem_toList.mpr given, within⟩)
      rw [subResources_of_possible names steps] at children
      cases children
    · cases children

end Lint

/-- Every bare type has the identifiers of its rules, and these are distinct. -/
theorem Model.distinct_of_bareTypes {factory : Option Nat} {bares : Keyed ResourceType}
    (made : bareTypes d factory = .ok bares) {name : String} {rules : ResourceRules}
    (there : (name, rules) ∈ d.resources) : rules.identifiers.Nodup := by
  obtain ⟨place, found⟩ := List.mem_iff_getElem?.mp there
  obtain ⟨_, _, one⟩ := (getElem_of_mapM made place).2 _ found
  obtain ⟨type, typed, _⟩ := bind_ok.mp one
  obtain ⟨_, identifiers, _, _, apart, _⟩ := ResourceType.of_make typed
  exact List.Nodup.of_map snakeCase (identifiers ▸ apart.identifiers)

/-- A document that compiles has no serious remarks. -/
theorem Model.not_serious_of_document {service : String} {factory : Option Nat} {m : Model}
    (made : ofDocument d service factory = .ok m) :
    ∀ remark ∈ Lint.document d, remark.isSerious = false := by
  obtain ⟨bares, typed, made⟩ := bind_ok.mp made
  obtain ⟨_, planned, _⟩ := bind_ok.mp made
  have scope := scope_of_bareTypes typed
  have possible : Possible (Plan.ofDocument d service (scopeOf bares)) := (Draft.of_steps planned).1
  intro remark member
  rcases List.mem_append.mp member with own | ofTypes
  · have silent : Lint.container d "Service" d.service = [] :=
      Lint.container_of_possible scope.keys possible.left.left.right
    rw [silent] at own
    cases own
  · obtain ⟨⟨name, rules⟩, there, within⟩ := List.mem_flatMap.mp ofTypes
    obtain ⟨type, loads, owned, shared⟩ := possible_of_type scope possible there
    exact Lint.resource_of_possible scope.keys (distinct_of_bareTypes typed there) loads owned shared
      remark within

/-- Lint has its say where no index of a target is too long. -/
theorem lint_of_short {given : Json} (read : Document.read given = .accepted d)
    (short : ∀ r ∈ d.requests, ∀ p ∈ r.params, Target.WithinLimits p.target) :
    lint given = .ok (Lint.document d) := by
  have none : d.requests.any RequestRule.hasLongIndex = false := by
    refine List.any_eq_false.mpr fun r asked long => ?_
    obtain ⟨p, member, long⟩ := List.any_eq_true.mp long
    have within := short r asked p member
    split at long
    · next same => exact within same
    · cases long
  rw [lint, read]
  simp [none]

/-- Lint has its say about every document that compiles. -/
theorem Model.lint_of_compile {given : Json} {service : String} {factory : Option Nat} {m : Model}
    (compiled : compile given service factory = .ok m) : ∃ remarks, lint given = .ok remarks := by
  unfold compile at compiled
  split at compiled
  · next d read =>
    obtain ⟨bares, typed, compiled⟩ := bind_ok.mp compiled
    obtain ⟨_, planned, _⟩ := bind_ok.mp compiled
    have made := requests_of_document (scope_of_bareTypes typed) (Draft.of_steps planned).1
    refine ⟨Lint.document d, lint_of_short read fun r asked p member long => ?_⟩
    obtain ⟨target, short⟩ := (made r asked).read member
    rw [short] at long
    cases long
  · cases compiled

/-! ## Agreement -/

/-- **Lint and the compiler agree.** Lint always has its say about a document, and whatever it
remarks on, other than style, makes compiling fail with a fault of the definition. Where compiling
fails because the document does not fit the schema, because a type is not there or because a target
cannot be read, one of the remarks is about that. -/
theorem Model.lint_agrees {given : Json}
    (limits : ∀ d, Document.read given = .accepted d → d.WithinLimits) :
    ∃ remarks, lint given = .ok remarks ∧
      (∀ remark ∈ remarks, remark.isSerious = true → ∀ service factory,
        ∃ fault, compile given service factory = .error (.definition fault)) ∧
      ∀ service factory fault, compile given service factory = .error (.definition fault) →
        fault.isLinted = true → ∃ remark ∈ remarks, remark.TellsOf fault := by
  cases read : Document.read given with
  | rejected findings =>
    refine ⟨findings.map .schema, by rw [lint, read], fun _ _ _ service factory => ?_, ?_⟩
    · exact ⟨.schema findings.length, by rw [compile, read]⟩
    · intro service factory fault failed _
      rw [compile, read] at failed
      cases failed
      obtain ⟨finding, member⟩ := List.exists_mem_of_ne_nil _ (Document.telling_read given findings read)
      exact ⟨.schema finding, List.mem_map_of_mem member, .schema finding _⟩
  | accepted d =>
    have compiles : ∀ service factory, compile given service factory = ofDocument d service factory :=
      fun _ _ => by rw [compile, read]
    refine ⟨Lint.document d, lint_of_short read fun r asked p member =>
      ((limits d read).params r asked p member).target, ?_, ?_⟩
    · intro remark member serious service factory
      rw [compiles]
      have accounted := ofDocument_accounted_of_read read (limits d read) service factory
      cases made : ofDocument d service factory with
      | ok m =>
        have style := not_serious_of_document made remark member
        exact absurd serious (by simp [style])
      | error failure =>
        obtain ⟨fault, rfl, _⟩ := accounted failure made
        exact ⟨fault, rfl⟩
    · intro service factory fault failed seen
      rw [compiles] at failed
      obtain ⟨_, ⟨⟩, told⟩ := ofDocument_accounted_of_read read (limits d read) service factory _ failed
      exact told seen

/-- A document whose users have a boss of a type that is not there. -/
def Model.straying : Json :=
  .object [("resources", .object [("user", .object [("hasOne", .object [("boss", .object
    [("type", .str "Boss")])])])])]

set_option maxRecDepth 100000 in
/-- The only remark about users with such a boss is serious, and they do not compile. -/
theorem Model.lint_agrees_straying :
    (∀ d, Document.read straying = .accepted d → d.WithinLimits) ∧
      lint straying = .ok [.unknownType "Resource 'user' hasOne 'boss'" "Boss"] ∧
      ∃ fault, compile straying "people" none = .error (.definition fault) := by
  have limits : ∀ d, Document.read straying = .accepted d → d.WithinLimits := fun d read => by
    cases read
    constructor <;>
      simp [Document.requests, Document.paths, ContainerRules.requests, ContainerRules.paths,
        BuildRule.paths]
  have remarked : lint straying = .ok [.unknownType "Resource 'user' hasOne 'boss'" "Boss"] := by cbv
  obtain ⟨remarks, linted, fails, _⟩ := lint_agrees limits
  obtain rfl := Except.ok.inj (linted.symm.trans remarked)
  exact ⟨limits, remarked, fails _ List.mem_cons_self rfl "people" none⟩

end ResourceGraph
