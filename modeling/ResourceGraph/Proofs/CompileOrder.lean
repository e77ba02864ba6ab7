import Mathlib
import ResourceGraph.Proofs.CompileFaults
import ResourceGraph.Proofs.DocumentOrder
import ResourceGraph.Proofs.ReadingOrder

/-!
Compiling documents whose entries are in another order. Both compile to models that look the same,
or neither compiles; and where no target and no path is too long to be read, and no source to be
written, the documents that do not compile are refused with a fault of definition. A target with an
index of too many digits is the exception: it is no fault of definition that ends the compilation
then.
-/

namespace ResourceGraph

open Naming Outcome

namespace ContainerRules.Shuffles

variable {rules rules' : ContainerRules}

private theorem requests (shuffles : rules.Shuffles rules') : rules.requests.Perm rules'.requests :=
  (shuffles.actions.map _).append (shuffles.hasMany.flatMap_right _)

private theorem paths (shuffles : rules.Shuffles rules') : rules.paths.Perm rules'.paths :=
  (((shuffles.actions.flatMap_right _).append (shuffles.hasMany.flatMap_right _)).append
    (shuffles.hasSome.flatMap_right _)).append (shuffles.hasOne.flatMap_right _)

end ContainerRules.Shuffles

namespace Document.Shuffles

variable {d d' : Document}

private theorem requests (shuffles : d.Shuffles d') : d.requests.Perm d'.requests := by
  refine shuffles.service.requests.append (shuffles.resources.flatMap fun x y ⟨_, rules⟩ => ?_)
  dsimp only
  rw [rules.load]
  exact rules.container.requests.append_left _

private theorem paths (shuffles : d.Shuffles d') : d.paths.Perm d'.paths := by
  refine shuffles.service.paths.append (shuffles.resources.flatMap fun x y ⟨_, rules⟩ => ?_)
  dsimp only
  rw [rules.load]
  exact rules.container.paths.append_left _

private theorem withinLimits (shuffles : d.Shuffles d') (limits : d.WithinLimits) : d'.WithinLimits where
  params r member := limits.params r (shuffles.requests.mem_iff.mpr member)
  paths path member := limits.paths path (shuffles.paths.mem_iff.mpr member)

end Document.Shuffles

namespace Model

/-- **The order of entries in a document does not matter.** Documents that differ in it compile to
models that look the same, or neither compiles. Where their projections and paths are within limits,
each of them compiles or has a fault of definition. -/
theorem compile_moved {given given' : Json} (moved : Json.DocumentMoved given given')
    (apart : ∀ d, Document.read given = .accepted d → d.RootNamesApart) (service : String)
    (factory : Option Nat) :
    (compile given service factory).toOption.map view =
      (compile given' service factory).toOption.map view ∧
      ((∀ d, Document.read given = .accepted d → d.WithinLimits) →
        Definite (compile given service factory) ∧ Definite (compile given' service factory)) := by
  have both := Check.both_document moved
  constructor
  · unfold compile Document.read
    unfold Document.read at apart
    generalize Check.document given = x at both apart
    generalize Check.document given' = y at both
    cases both with
    | accepted read =>
      obtain ⟨shuffles, distinct⟩ := read
      exact view_shuffled shuffles distinct (apart _ rfl) service factory
    | rejected _ _ => rfl
  · intro limits
    refine ⟨compile_definite limits service factory, compile_definite ?_ service factory⟩
    intro d' read'
    unfold Document.read at limits read'
    rw [read'] at both
    generalize Check.document given = x at both limits
    cases both with
    | accepted read => exact read.1.withinLimits (limits _ rfl)

end Model

/-! ## A club -/

theorem Json.EntriesMoved.of_perm {related : Json → Json → Prop} {fields fields' : Keyed Json}
    (distinct : (Keyed.keys fields).Nodup) (order : fields.Perm fields')
    (same : ∀ entry ∈ fields', related entry.2 entry.2) :
    EntriesMoved related (.object fields) (.object fields') :=
  .map distinct ⟨fields', order, List.forall₂_same.mpr fun entry member => ⟨rfl, same entry member⟩⟩

namespace Model

/-- A document about a club: the actions of the club, and the types of its people. -/
def clubOf (actions types : Keyed Json) : Json :=
  .object [("service", .object [("actions", .object actions)]), ("resources", .object types)]

private theorem clubOf_moved {actions actions' types types' : Keyed Json}
    (distinct : (Keyed.keys actions).Nodup) (order : actions.Perm actions')
    (distinctTypes : (Keyed.keys types).Nodup) (orderTypes : types.Perm types')
    (same : ∀ entry ∈ types', Json.ContainerMoved entry.2 entry.2) :
    Json.DocumentMoved (clubOf actions types) (clubOf actions' types') := by
  have acts : Json.RuleMapMoved "actions" (.object actions) (.object actions') :=
    .of_perm distinct order fun _ _ => rfl
  have service : Json.PartMoved "service" (.object [("actions", .object actions)])
      (.object [("actions", .object actions')]) := .object (.cons ⟨rfl, acts⟩ .nil)
  have resources : Json.PartMoved "resources" (.object types) (.object types') :=
    .of_perm distinctTypes orderTypes same
  exact .object (.cons ⟨rfl, service⟩ (.cons ⟨rfl, resources⟩ .nil))

/-- An action that writes a text to a target, and one that writes nothing. -/
def clubActions (target : String) : Keyed Json :=
  [("open", .object [("request", .object [("operation", .str "Open"), ("params", .list [.object
      [("target", .str target), ("sourceType", .str "string"), ("source", .str "A")]])])]),
    ("close", .object [("request", .object [("operation", .str "Close")])])]

/-- Members and guests. -/
def clubTypes : Keyed Json :=
  [("member", .object [("identifiers", .list [.str "id"])]), ("guest", .object [])]

/-- What the document of the club says. -/
def clubRules (target : String) : Document where
  service := { actions :=
    [("open", { request := ⟨"Open", [⟨target, .string, .str "A"⟩]⟩ }),
      ("close", { request := ⟨"Close", []⟩ })] }
  resources := [("member", { identifiers := ["id"] }), ("guest", {})]

private theorem read_club (target : String) :
    Document.read (clubOf (clubActions target) clubTypes) = .accepted (clubRules target) := rfl

private theorem club_moved (target : String) : Json.DocumentMoved (clubOf (clubActions target) clubTypes)
    (clubOf (clubActions target).reverse clubTypes.reverse) := by
  have names : (Keyed.keys (clubActions target)).Nodup := show ["open", "close"].Nodup by decide
  refine clubOf_moved names (List.reverse_perm _).symm (by decide) (List.reverse_perm _).symm ?_
  intro entry member
  rcases List.mem_reverse.mp member with _ | ⟨_, _ | ⟨_, ⟨⟩⟩⟩
  · exact .object (.cons ⟨rfl, rfl⟩ .nil)
  · exact .object .nil

private theorem club_apart (target : String) : (clubRules target).RootNamesApart := by
  refine .cons (fun entry member => ?_) (.cons (by simp) .nil)
  obtain rfl := List.mem_singleton.mp member
  rintro ⟨_, _, same⟩
  have first : snakeCase "member" = "member" := by cbv
  have second : snakeCase "guest" = "guest" := by cbv
  rw [first, second] at same
  exact absurd same (by decide)

private theorem club_withinLimits {target : String} (limits : Target.WithinLimits target) :
    (clubRules target).WithinLimits where
  params := by
    intro r member p written
    rcases member with _ | ⟨_, _ | ⟨_, ⟨⟩⟩⟩
    · obtain rfl := List.mem_singleton.mp written
      exact ⟨limits, fun _ => rfl⟩
    · cases written
  paths := by simp [Document.paths, ContainerRules.paths, ActionRule.paths, clubRules]

set_option maxRecDepth 100000 in
/-- The club compiles in either order, to models that look the same. -/
theorem compile_moved_club :
    (∃ m m', compile (clubOf (clubActions "hall.name") clubTypes) "club" none = .ok m ∧
      compile (clubOf (clubActions "hall.name").reverse clubTypes.reverse) "club" none = .ok m' ∧
      m.view = m'.view) ∧
    Definite (compile (clubOf (clubActions "hall.name") clubTypes) "club" none) ∧
    Definite (compile (clubOf (clubActions "hall.name").reverse clubTypes.reverse) "club" none) := by
  have short : Target.WithinLimits "hall.name" := by
    have read : Target.read "hall.name" = .ok ⟨"hall.name", .member "hall" "name"⟩ := by cbv
    rw [Target.WithinLimits, read]
    simp
  have rules : ∀ d, Document.read (clubOf (clubActions "hall.name") clubTypes) = .accepted d →
      d = clubRules "hall.name" := fun d read => by
    rw [read_club] at read
    cases read
    rfl
  have both :=
    compile_moved (club_moved "hall.name") (fun d read => rules d read ▸ club_apart _) "club" none
  obtain ⟨views, definite⟩ := both
  refine ⟨?_, definite fun d read => rules d read ▸ club_withinLimits short⟩
  have compiles : (compile (clubOf (clubActions "hall.name") clubTypes) "club"
      none).toOption.isSome = true := by
    cbv
  cases made : compile (clubOf (clubActions "hall.name") clubTypes) "club" none with
  | error fault => simp [made, Except.toOption] at compiles
  | ok m =>
    rw [made] at views
    cases made' : compile (clubOf (clubActions "hall.name").reverse clubTypes.reverse) "club" none with
    | error fault => simp [made', Except.toOption] at views
    | ok m' =>
      rw [made'] at views
      exact ⟨m, m', rfl, rfl, Option.some.inj views⟩

/-! ## An index that is too long -/

/-- A club without types whose action writes to a target that is too long does not compile. -/
theorem compile_of_long {target : String} (long : Target.read target = .error .indexTooLong)
    (service : String) (factory : Option Nat) :
    compile (clubOf (clubActions target) []) service factory = .error (.misuse .badNumber) := by
  have projected : Projection.make target .string (.str "A") = .error (.misuse .badNumber) := by
    rw [Projection.make, Projection.sourceOf, written_of_fits rfl, Projection.readTarget, long]
    rfl
  have asked : Scope.request ⟨.root, service, []⟩ ⟨"Open", [⟨target, .string, .str "A"⟩]⟩ =
      .error (.misuse .badNumber) := by
    simp [Scope.request, Scope.projection, Scope.given, projected, bind, Except.bind]
  have acted : Scope.action [] ⟨.root, service, []⟩ "open"
      { request := ⟨"Open", [⟨target, .string, .str "A"⟩]⟩ } = .error (.misuse .badNumber) := by
    rw [Scope.action, asked]
    rfl
  have planned : ∃ rest, Plan.ofDocument { clubRules target with resources := [] } service [] =
      Plan.named ⟨.root, service, []⟩ (snakeCase "open") (.error (.misuse .badNumber)) :: rest := by
    rw [← acted]
    exact ⟨_, rfl⟩
  obtain ⟨rest, planned⟩ := planned
  have read : compile (clubOf (clubActions target) []) service factory =
      (do
        let steps ← (Plan.ofDocument { clubRules target with resources := [] } service []).foldlM
          Draft.take
          ⟨{ name := service, factory }, []⟩
        let exposed ← ([] : List TypeSignature).foldlM Draft.expose steps
        return {
          name := service
          root := exposed.root.freeze
          types := exposed.types.map fun entry => (entry.1, entry.2.freeze) }) := rfl
  rw [read, planned]
  rfl

/-- A club that writes to an element whose index has 4301 digits does not compile, and that is no
fault of definition, in whatever order its actions are written. -/
theorem compile_longIndex : ¬ ∀ given given', Json.DocumentMoved given given' →
    (∀ d, Document.read given = .accepted d → d.RootNamesApart) →
    Definite (compile given "club" none) ∧ Definite (compile given' "club" none) := by
  intro definite
  have long : Target.read (Target.indexed (List.replicate 4301 '9')) = .error .indexTooLong := by
    refine Target.read_indexed (fun c member => ?_) ?_
    · rw [List.eq_of_mem_replicate member]
      decide
    · rw [List.length_replicate]
      decide
  generalize Target.indexed (List.replicate 4301 '9') = target at long
  have names : (Keyed.keys (clubActions target)).Nodup := show ["open", "close"].Nodup by decide
  have moved : Json.DocumentMoved (clubOf (clubActions target) [])
      (clubOf (clubActions target).reverse []) :=
    clubOf_moved names (List.reverse_perm _).symm List.nodup_nil (.refl []) (by simp)
  have failed := compile_of_long long "club" none
  obtain ⟨first, _⟩ := definite _ _ moved fun d read => by
    have accepted : Document.read (clubOf (clubActions target) []) =
        .accepted { clubRules target with resources := [] } := rfl
    rw [accepted] at read
    cases read
    exact .nil
  obtain ⟨fault, same⟩ := first _ failed
  cases same

end Model

end ResourceGraph
