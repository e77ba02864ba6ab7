import Mathlib
import ResourceGraph.Proofs.CompileOrder
import ResourceGraph.Proofs.ReadingSpelling

/-!
Compiling documents in another spelling. Where the names that callers see are spelt in another way,
both documents compile to the same model, or neither compiles; and where no target and no path is
too long to be read, and no source to be written, the documents that do not compile are refused with
a fault of definition. A target with an index of too many digits is the exception, in every
spelling.
-/

namespace ResourceGraph

open Naming Outcome

namespace Model

/-- **The spelling of names that callers see does not matter.** Documents that differ in it compile
to the same model, or both have a fault of definition, or both fail alike. Where their projections
and paths are within limits, each of them compiles or has a fault of definition. -/
theorem compile_respelt {given given' : Json} (respelt : Json.DocumentRespelt given given')
    (service : String) (factory : Option Nat) :
    Agree (compile given service factory) (compile given' service factory) ∧
      ((∀ d, Document.read given = .accepted d → d.WithinLimits) →
        Definite (compile given service factory) ∧ Definite (compile given' service factory)) := by
  have both := Check.both_document_respelt respelt
  have agree : Agree (compile given service factory) (compile given' service factory) := by
    unfold compile Document.read
    generalize Check.document given = x at both
    generalize Check.document given' = y at both
    cases both with
    | accepted respells => exact ofDocument_agree respells service factory
    | rejected _ _ => exact .faults _ _
  refine ⟨agree, fun limits => ?_⟩
  have definite := compile_definite limits service factory
  exact ⟨definite, agree.definite definite⟩

/-- A projection of an identifier. -/
def projectionOf (identifier : String) : Json :=
  .object [("target", .str "UserName"), ("sourceType", .str "identifier"), ("source", .str identifier)]

/-- A request with one projection. -/
def requestOf (operation identifier : String) : Json :=
  .object [("operation", .str operation), ("params", .list [projectionOf identifier])]

/-- A document about users, who have an identifier and an action that sends it. -/
def usersOf (identifier action operation : String) : Json :=
  .object [("resources", .object [("User", .object [("identifiers", .list [.str identifier]),
    ("actions", .object [(action, .object [("request", requestOf operation identifier)])])])])]

private theorem usersOf_respelt {identifier identifier' action action' operation operation' : String}
    (identifiers : Respelt identifier identifier') (actions : Respelt action action')
    (operations : Respelt operation operation') :
    Json.DocumentRespelt (usersOf identifier action operation)
      (usersOf identifier' action' operation') := by
  have read : Json.NamesRespelt ["source"] "source" (.str identifier) (.str identifier') :=
    .name identifiers
  have projected : Json.BindingRespelt [] (projectionOf identifier) (projectionOf identifier') :=
    .identifier rfl (.cons ⟨rfl, rfl⟩ (.cons ⟨rfl, rfl⟩ (.cons ⟨rfl, read⟩ .nil)))
  have called : Json.RequestPartRespelt "operation" (.str operation) (.str operation') :=
    .name operations
  have params : Json.RequestPartRespelt "params" (.list [projectionOf identifier])
      (.list [projectionOf identifier']) := .list (.cons projected .nil)
  have request : Json.RulePartRespelt "request" (requestOf operation identifier)
      (requestOf operation' identifier') := .object (.cons ⟨rfl, called⟩ (.cons ⟨rfl, params⟩ .nil))
  have rules : Json.ContainerPartRespelt "actions"
      (.object [(action, .object [("request", requestOf operation identifier)])])
      (.object [(action', .object [("request", requestOf operation' identifier')])]) :=
    .map (.cons ⟨actions, .object (.cons ⟨rfl, request⟩ .nil)⟩ .nil)
  have named : Json.ContainerPartRespelt "identifiers" (.list [.str identifier])
      (.list [.str identifier']) :=
    .list (.cons (.inl (.name identifiers)) .nil)
  refine .object (.cons ⟨rfl, ?_⟩ .nil)
  change Json.MembersLike (fun _ => Json.ContainerRespelt) _ _
  exact .object (.cons ⟨rfl, .object (.cons ⟨rfl, named⟩ (.cons ⟨rfl, rules⟩ .nil))⟩ .nil)

/-- What the document about users says. -/
def usersRules (identifier action operation : String) : Document where
  resources := [("User", {
    container := { actions := [(action, {
      request := ⟨operation, [⟨"UserName", .identifier, .str identifier⟩]⟩ })] }
    identifiers := [identifier] })]

private theorem read_users (identifier action operation : String) :
    Document.read (usersOf identifier action operation) =
      .accepted (usersRules identifier action operation) := rfl

private theorem users_withinLimits (identifier action operation : String) :
    (usersRules identifier action operation).WithinLimits where
  params := by
    intro r member p written
    obtain rfl := List.mem_singleton.mp member
    obtain rfl := List.mem_singleton.mp written
    have read : Target.read "UserName" = .ok ⟨"UserName", .key "UserName"⟩ := by decide +kernel
    refine ⟨?_, fun _ => rfl⟩
    rw [Target.WithinLimits, read]
    simp
  paths := by simp [Document.paths, ContainerRules.paths, ActionRule.paths, usersRules]

/-- Users compile to the same model, whether their names are written with capitals or with
underscores. -/
theorem compile_respelt_users :
    (∃ m, compile (usersOf "UserName" "DeleteUser" "DeleteUser") "club" none = .ok m ∧
      compile (usersOf "user_name" "delete_user" "delete-user") "club" none = .ok m) ∧
    Definite (compile (usersOf "UserName" "DeleteUser" "DeleteUser") "club" none) ∧
    Definite (compile (usersOf "user_name" "delete_user" "delete-user") "club" none) := by
  have names : Respelt "UserName" "user_name" := by
    unfold Respelt
    decide +kernel
  have actions : Respelt "DeleteUser" "delete_user" := by
    unfold Respelt
    decide +kernel
  have operations : Respelt "DeleteUser" "delete-user" := by
    unfold Respelt
    decide +kernel
  obtain ⟨agree, definite⟩ := compile_respelt (usersOf_respelt names actions operations) "club" none
  refine ⟨?_, definite fun d read => ?_⟩
  · have compiles :
        (compile (usersOf "UserName" "DeleteUser" "DeleteUser") "club" none).toOption.isSome := by
      decide +kernel
    generalize compile (usersOf "UserName" "DeleteUser" "DeleteUser") "club" none = x at agree compiles
    generalize compile (usersOf "user_name" "delete_user" "delete-user") "club" none = y at agree
    cases agree with
    | faults _ _ => cases compiles
    | same x =>
      cases x with
      | error f => cases compiles
      | ok m => exact ⟨m, rfl, rfl⟩
  · rw [read_users] at read
    cases read
    exact users_withinLimits _ _ _

/-! ## An index that is too long -/

private theorem clubOf_respelt {actions actions' : Keyed Json}
    (pairs : List.Forall₂ (RespeltKey Json.RuleRespelt) actions actions') :
    Json.DocumentRespelt (clubOf actions []) (clubOf actions' []) := by
  have rules : Json.ContainerPartRespelt "actions" (.object actions) (.object actions') := .map pairs
  have service : Json.PartRespelt "service" (.object [("actions", .object actions)])
      (.object [("actions", .object actions')]) := .object (.cons ⟨rfl, rules⟩ .nil)
  have types : Json.PartRespelt "resources" (.object []) (.object []) := .object .nil
  exact .object (.cons ⟨rfl, service⟩ (.cons ⟨rfl, types⟩ .nil))

/-- A club that writes to an element whose index has 4301 digits does not compile, and that is no
fault of definition, however the names of its actions are spelt. -/
theorem compile_respelt_longIndex : ¬ ∀ given given', Json.DocumentRespelt given given' →
    Definite (compile given "club" none) ∧ Definite (compile given' "club" none) := by
  intro definite
  have long : Target.read (Target.indexed (List.replicate 4301 '9')) = .error .indexTooLong := by
    refine Target.read_indexed (fun c member => ?_) ?_
    · rw [List.eq_of_mem_replicate member]
      decide
    · rw [List.length_replicate]
      decide
  generalize Target.indexed (List.replicate 4301 '9') = target at long
  have spellings : Respelt "open" "Open" := by
    unfold Respelt
    decide +kernel
  have respelt : Json.DocumentRespelt (clubOf (clubActions target) [])
      (clubOf ((clubActions target).map
        fun entry => (if entry.1 = "open" then "Open" else entry.1, entry.2)) []) :=
    clubOf_respelt (.cons ⟨spellings, .refl _⟩ (.cons ⟨rfl, .refl _⟩ .nil))
  obtain ⟨first, _⟩ := definite _ _ respelt
  obtain ⟨fault, same⟩ := first _ (compile_of_long long "club" none)
  cases same

end Model

end ResourceGraph
