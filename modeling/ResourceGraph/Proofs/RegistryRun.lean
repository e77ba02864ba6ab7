import Mathlib.Data.List.Induction
import ResourceGraph.Proofs.LintAgreement
import ResourceGraph.Registry

/-!
Runs of a registry: services are registered and looked up, documents are added to the loader and
files are written, in any order. A service that was looked up once stays as it is. Until then a
registry knows of a run only what was registered last for each service and where the loader has come
to, and that is all that the first lookup goes by.
-/

namespace ResourceGraph

/-- What is done to a registry, or to its loader meanwhile. -/
inductive Registry.Event
  /-- A document that is null is none. -/
  | register (service : String) (document : Json) (factory : Option Nat)
  | get (service : String)
  | add (service : String) (document : Json)
  | writeFile (file text : String)
  deriving DecidableEq

namespace Registry

/-- The document that is given, if there is one. -/
def given? : Json → Option Json
  | .null => none
  | document => some document

namespace Event

/-- The loader after the event. What cannot be added changes nothing. -/
def loader (before : Loader) : Event → Loader
  | add service document => (before.add service document).toOption.getD before
  | writeFile file text => before.writeFile file text
  | register .. | get _ => before

/-- The document that the event registers for a service, else the one from before. -/
def document (service : String) (before : Option Json) : Event → Option Json
  | register name document _ => if name = service then (given? document).or before else before
  | _ => before

/-- The client factory that the event registers for a service, else the one from before. -/
def factory (service : String) (before : Option Nat) : Event → Option Nat
  | register name _ factory => if name = service then factory.or before else before
  | _ => before

end Event

/-- The registry after an event. -/
def after (r : Registry) (e : Event) : Registry :=
  match e with
  | .register service document factory =>
    match r.register service (given? document) factory with
    | .ok (registered, _) => registered
    | .error _ => r
  | .get service => (r.get service).registry
  | .add .. | .writeFile .. => { r with loader := e.loader r.loader }

/-- The registry after a run. -/
def run (r : Registry) (events : List Event) : Registry := events.foldl after r

/-- The loader after a run. -/
def loaderAfter (start : Loader) (events : List Event) : Loader := events.foldl Event.loader start

/-- The document that was registered last for a service. -/
def lastDocument (service : String) (events : List Event) : Option Json :=
  events.foldl (Event.document service) none

/-- The client factory that was registered last for a service. -/
def lastFactory (service : String) (events : List Event) : Option Nat :=
  events.foldl (Event.factory service) none

/-- The document of a service after a run: the one that was registered last, else the one that the
loader has now. -/
def documentAfter (start : Loader) (service : String) (events : List Event) : Except Failure Json :=
  match lastDocument service events with
  | some document => .ok document
  | none => (loaderAfter start events).load service

/-- No lookup of the service has succeeded in the run. -/
def Unanswered (start : Loader) (service : String) (events : List Event) : Prop :=
  ∀ before rest, events = before ++ .get service :: rest →
    ∀ m, ((run { loader := start } before).get service).outcome ≠ .ok m

/-- The event compiles the service. -/
def compiles (r : Registry) (service : String) : Event → Bool
  | .get name => name == service && !r.isCompiled name && (r.get name).outcome.toOption.isSome
  | _ => false

/-- How often a run compiles a service. -/
def compilations (service : String) : Registry → List Event → Nat
  | _, [] => 0
  | r, e :: rest => (if r.compiles service e then 1 else 0) + compilations service (r.after e) rest

variable {r : Registry} {service : String} {m : Model} {start : Loader} {events : List Event}

theorem run_append (r : Registry) (before rest : List Event) :
    r.run (before ++ rest) = (r.run before).run rest := List.foldl_append

/-! ## Lookups -/

/-- A model that is there is given to everyone, and nothing else happens. -/
theorem get_of_compiled (there : Keyed.get? r.models service = some m) :
    r.get service = ⟨.ok m, r, []⟩ := by
  rw [get, there]

theorem get_of_missing (missing : Keyed.get? r.models service = none) :
    r.get service = r.compile service := by
  rw [get, missing]

/-- Compiling gives a failure and changes nothing, or gives a model, which the registry has from
then on. -/
theorem compile_cases (r : Registry) (service : String) :
    (∃ failure, (r.compile service).outcome = .error failure ∧ (r.compile service).registry = r) ∨
      ∃ m, (r.compile service).outcome = .ok m ∧
        (r.compile service).registry = { r with models := Keyed.put r.models service m } := by
  unfold compile
  split
  · exact .inl ⟨_, rfl, rfl⟩
  · exact .inl ⟨_, rfl, rfl⟩
  · split
    · exact .inl ⟨_, rfl, rfl⟩
    · dsimp only
      split
      · exact .inr ⟨_, rfl, rfl⟩
      · exact .inl ⟨_, rfl, rfl⟩

/-- Null does not compile. -/
theorem compile_null (service : String) (factory : Option Nat) :
    ∃ failure, Model.compile .null service factory = .error failure := ⟨_, rfl⟩

/-- The registry compiles the document of the service with its client factory. -/
theorem compile_outcome : (r.compile service).outcome = .ok m ↔
    ∃ document, r.document service = .ok document ∧
      Model.compile document service (Keyed.get? r.factories service) = .ok m := by
  unfold compile
  cases r.document service with
  | error failure => simp
  | ok document =>
    have only : ∀ holds : Json → Prop, (∃ found, Except.ok document = (.ok found : Except Failure Json) ∧
        holds found) ↔ holds document := fun holds => by simp
    rw [only]
    split
    · next same => cases same
    · next same =>
      cases same
      obtain ⟨failure, fails⟩ := compile_null service (Keyed.get? r.factories service)
      simp [fails]
    · next same =>
      cases same
      split
      · next failure silent =>
        constructor
        · exact nofun
        · intro compiled
          obtain ⟨remarks, linted⟩ := Model.lint_of_compile compiled
          rw [silent] at linted
          cases linted
      · dsimp only
        split
        · next compiled => simp [compiled]
        · next failed => simp [failed]

/-- A lookup that fails leaves the registry as it was. -/
theorem get_of_failure {failure : Failure} (failed : (r.get service).outcome = .error failure) :
    (r.get service).registry = r := by
  cases there : Keyed.get? r.models service with
  | some m => rw [get_of_compiled there]
  | none =>
    rw [get_of_missing there] at failed ⊢
    rcases r.compile_cases service with ⟨_, _, same⟩ | ⟨m, given, _⟩
    · exact same
    · rw [given] at failed
      cases failed

/-- A lookup that succeeds leaves the model behind. -/
theorem models_of_get (given : (r.get service).outcome = .ok m) :
    Keyed.get? (r.get service).registry.models service = some m := by
  cases there : Keyed.get? r.models service with
  | some n =>
    rw [get_of_compiled there] at given ⊢
    cases given
    exact there
  | none =>
    rw [get_of_missing there] at given ⊢
    rcases r.compile_cases service with ⟨failure, failed, _⟩ | ⟨n, made, after⟩
    · rw [failed] at given
      cases given
    · rw [made] at given
      cases given
      rw [after]
      exact Keyed.get?_put_self _ _ _

/-! ## One event -/

/-- A service that was compiled cannot be registered. -/
theorem register_of_compiled (there : Keyed.get? r.models service = some m) (document : Option Json)
    (factory : Option Nat) :
    r.register service document factory = .error (.definition (.alreadyCompiled service)) := by
  have compiled : Keyed.has r.models service = true := by
    rw [Keyed.has, there]
    rfl
  exact if_pos compiled

/-- What an event does to the models: nothing, or it adds the one that a lookup was given. -/
theorem models_after (r : Registry) (e : Event) :
    (r.after e).models = r.models ∨
      ∃ name m, e = .get name ∧ Keyed.get? r.models name = none ∧ (r.get name).outcome = .ok m ∧
        (r.after e).models = Keyed.put r.models name m := by
  cases e with
  | register name document factory =>
    left
    unfold after register
    dsimp only
    by_cases compiled : Keyed.has r.models name = true
    · rw [if_pos compiled]
    · rw [if_neg compiled]
  | get name =>
    cases there : Keyed.get? r.models name with
    | some m => exact .inl (congrArg models (congrArg Lookup.registry (get_of_compiled there)))
    | none =>
      have compiled := get_of_missing there
      rw [after, compiled]
      rcases r.compile_cases name with ⟨_, _, same⟩ | ⟨m, made, added⟩
      · exact .inl (congrArg models same)
      · exact .inr ⟨name, m, rfl, there, compiled ▸ made, congrArg models added⟩
  | add name document => exact .inl rfl
  | writeFile file text => exact .inl rfl

/-- A model that is there stays. -/
theorem kept_after (there : Keyed.get? r.models service = some m) (e : Event) :
    Keyed.get? (r.after e).models service = some m := by
  rcases r.models_after e with same | ⟨name, n, rfl, missing, _, added⟩
  · rw [same, there]
  · have other : service ≠ name := fun same => by
      rw [same, missing] at there
      cases there
    rw [added, Keyed.get?_put_of_ne _ _ other, there]

/-- A model that is not there was not there before. -/
theorem missing_of_after {e : Event} (missing : Keyed.get? (r.after e).models service = none) :
    Keyed.get? r.models service = none := by
  cases there : Keyed.get? r.models service with
  | none => rfl
  | some m =>
    rw [kept_after there e] at missing
    cases missing

/-- What is registered for one service is nothing to the others. -/
theorem get?_registered {α : Type} (entries : Keyed α) (name service : String) (given : Option α) :
    Keyed.get? (match given with
      | some a => Keyed.put entries name a
      | none => entries) service =
      if name = service then given.or (Keyed.get? entries service) else Keyed.get? entries service := by
  cases given with
  | none => simp
  | some a =>
    by_cases same : name = service
    · subst same
      simp
    · simp [same, Keyed.get?_put_of_ne _ _ (Ne.symm same)]

/-- Events change the loader, and what is registered for services that were not compiled, as they
say. -/
theorem recorded_after (r : Registry) (e : Event) :
    (r.after e).loader = e.loader r.loader ∧
      ∀ service, Keyed.get? r.models service = none →
        Keyed.get? (r.after e).documents service = e.document service (Keyed.get? r.documents service) ∧
        Keyed.get? (r.after e).factories service =
          e.factory service (Keyed.get? r.factories service) := by
  cases e with
  | register name document factory =>
    unfold after register
    dsimp only
    by_cases compiled : Keyed.has r.models name = true
    · rw [if_pos compiled]
      refine ⟨rfl, fun service missing => ?_⟩
      have other : name ≠ service := fun same => by
        rw [same, Keyed.has, missing] at compiled
        cases compiled
      simp [Event.document, Event.factory, other]
    · rw [if_neg compiled]
      refine ⟨rfl, fun service _ => ⟨?_, ?_⟩⟩
      · refine Eq.trans ?_ (get?_registered r.documents name service (given? document))
        cases given? document <;> rfl
      · refine Eq.trans ?_ (get?_registered r.factories name service factory)
        cases factory <;> rfl
  | get name =>
    have kept : (r.get name).registry.loader = r.loader ∧ (r.get name).registry.documents = r.documents ∧
        (r.get name).registry.factories = r.factories := by
      cases there : Keyed.get? r.models name with
      | some m =>
        rw [get_of_compiled there]
        exact ⟨rfl, rfl, rfl⟩
      | none =>
        rw [get_of_missing there]
        rcases r.compile_cases name with ⟨_, _, same⟩ | ⟨m, _, same⟩
        · rw [same]
          exact ⟨rfl, rfl, rfl⟩
        · rw [same]
          exact ⟨rfl, rfl, rfl⟩
    exact ⟨kept.1, fun service _ => ⟨congrArg (Keyed.get? · service) kept.2.1,
      congrArg (Keyed.get? · service) kept.2.2⟩⟩
  | add name document => exact ⟨rfl, fun _ _ => ⟨rfl, rfl⟩⟩
  | writeFile file text => exact ⟨rfl, fun _ _ => ⟨rfl, rfl⟩⟩

/-! ## Runs -/

private theorem kept_of_run (there : Keyed.get? r.models service = some m) (events : List Event) :
    Keyed.get? (r.run events).models service = some m := by
  induction events generalizing r with
  | nil => exact there
  | cons e rest ih => exact ih (kept_after there e)

/-- The registry knows of a run what it says about services that were not compiled. -/
structure Recorded (start : Loader) (events : List Event) (r : Registry) : Prop where
  loader : r.loader = loaderAfter start events
  document : ∀ service, Keyed.get? r.models service = none →
    Keyed.get? r.documents service = lastDocument service events
  factory : ∀ service, Keyed.get? r.models service = none →
    Keyed.get? r.factories service = lastFactory service events

private theorem recorded_run (start : Loader) (events : List Event) :
    Recorded start events (run { loader := start } events) := by
  induction events using List.reverseRecOn with
  | nil => exact ⟨rfl, fun _ _ => rfl, fun _ _ => rfl⟩
  | append_singleton events e ih =>
    have last : run { loader := start } (events ++ [e]) = (run { loader := start } events).after e :=
      run_append _ _ _
    obtain ⟨loader, others⟩ := recorded_after (run { loader := start } events) e
    rw [last]
    refine ⟨?_, fun service missing => ?_, fun service missing => ?_⟩
    · rw [loader, ih.loader, loaderAfter, loaderAfter, List.foldl_append]
      rfl
    · rw [(others service (missing_of_after missing)).1, ih.document service (missing_of_after missing),
        lastDocument, lastDocument, List.foldl_append]
      rfl
    · rw [(others service (missing_of_after missing)).2, ih.factory service (missing_of_after missing),
        lastFactory, lastFactory, List.foldl_append]
      rfl

/-- A service without a successful lookup has not been compiled. -/
theorem missing_of_unanswered (unanswered : Unanswered start service events) :
    Keyed.get? (run { loader := start } events).models service = none := by
  induction events using List.reverseRecOn with
  | nil => rfl
  | append_singleton events e ih =>
    have earlier : Unanswered start service events := fun before rest split =>
      unanswered before (rest ++ [e]) (by simp [split])
    have missing := ih earlier
    rw [run_append]
    rcases (run { loader := start } events).models_after e with same | ⟨name, m, rfl, _, given, added⟩
    · exact (congrArg (Keyed.get? · service) same).trans missing
    · have other : service ≠ name := fun same =>
        unanswered events [] (by rw [same]) m (same ▸ given)
      have kept := Keyed.get?_put_of_ne (run { loader := start } events).models m other
      exact ((congrArg (Keyed.get? · service) added).trans kept).trans missing

/-- **The first lookup** of a service goes by what was registered last for it, in whatever order its
document and its factory were, and by the document that the loader has now if none was registered. -/
theorem outcome_of_unanswered (unanswered : Unanswered start service events) :
    ((run { loader := start } events).get service).outcome = .ok m ↔
      ∃ document, documentAfter start service events = .ok document ∧
        Model.compile document service (lastFactory service events) = .ok m := by
  have missing := missing_of_unanswered unanswered
  have recorded := recorded_run start events
  have found : (run { loader := start } events).document service =
      documentAfter start service events := by
    exact congrArg₂ (fun last (loader : Loader) => match last with
      | some document => Except.ok document
      | none => loader.load service) (recorded.document service missing) recorded.loader
  rw [get_of_missing missing, compile_outcome, found, recorded.factory service missing]

private theorem compilations_of_compiled (there : Keyed.get? r.models service = some m)
    (events : List Event) :
    compilations service r events = 0 := by
  induction events generalizing r with
  | nil => rfl
  | cons e rest ih =>
    have again : r.compiles service e = false := by
      cases e with
      | get name =>
        by_cases same : name = service
        · simp [compiles, same, isCompiled, Keyed.has, there]
        · simp [compiles, same]
      | register | add | writeFile => rfl
    simp [compilations, again, ih (kept_after there e)]

private theorem compilations_le_one (r : Registry) (service : String) (events : List Event) :
    compilations service r events ≤ 1 := by
  induction events generalizing r with
  | nil => exact Nat.zero_le 1
  | cons e rest ih =>
    rw [compilations]
    split
    · next compiled =>
      cases e with
      | get name =>
        simp only [compiles, Bool.and_eq_true, beq_iff_eq] at compiled
        obtain ⟨⟨rfl, _⟩, given⟩ := compiled
        cases outcome : (r.get name).outcome with
        | error failure => simp [outcome, Except.toOption] at given
        | ok m =>
          have there : Keyed.get? (r.after (.get name)).models name = some m := models_of_get outcome
          simp only [compilations_of_compiled there, Nat.add_zero, Nat.le_refl]
      | register | add | writeFile => cases compiled
    · rw [Nat.zero_add]
      exact ih _

/-- A service that was not compiled can be registered with a document that compiles, and is found
then. -/
theorem get_of_registered (missing : Keyed.get? r.models service = none) {document : Json}
    {factory : Option Nat}
    (compiled : Model.compile document service (factory.or (Keyed.get? r.factories service)) = .ok m) :
    ((r.after (.register service document factory)).get service).outcome = .ok m := by
  have unchanged : Keyed.get? (r.after (.register service document factory)).models service = none := by
    rcases r.models_after (.register service document factory) with same | ⟨_, _, other, _⟩
    · rw [same, missing]
    · cases other
  obtain ⟨registered, made⟩ := (r.recorded_after (.register service document factory)).2 service missing
  have some : given? document = some document := by
    unfold given?
    split
    · obtain ⟨failure, fails⟩ := compile_null service (factory.or (Keyed.get? r.factories service))
      rw [fails] at compiled
      cases compiled
    · rfl
  rw [Event.document, if_pos rfl, some, Option.some_or] at registered
  rw [Event.factory, if_pos rfl] at made
  rw [get_of_missing unchanged, compile_outcome, Registry.document, registered, made]
  exact ⟨document, rfl, compiled⟩

/-- **A service is compiled at most once**, whatever is registered, added or written in between. A
lookup that fails changes nothing, and a later one succeeds as soon as a document that compiles is
registered. Once a lookup has given a model, every later one gives the same model, and the service
can no longer be registered. The first lookup that succeeds compiles the document that was
registered last, or the one that the loader has by then if none was registered, with the client
factory that was registered last. -/
theorem run_lawful (start : Loader) (service : String) (before : List Event) :
    compilations service { loader := start } before ≤ 1 ∧
    (∀ failure, ((run { loader := start } before).get service).outcome = .error failure →
      ((run { loader := start } before).get service).registry = run { loader := start } before ∧
      ∀ document factory m,
        Model.compile document service (factory.or (lastFactory service before)) = .ok m →
          ((run { loader := start } (before ++ [.get service, .register service document factory])).get
            service).outcome = .ok m) ∧
    (∀ m, ((run { loader := start } before).get service).outcome = .ok m → ∀ rest,
      let later := run { loader := start } (before ++ .get service :: rest)
      later.get service = ⟨.ok m, later, []⟩ ∧ ∀ document factory,
        later.register service document factory = .error (.definition (.alreadyCompiled service)) ∧
          later.after (.register service (document.getD .null) factory) = later) ∧
    (Unanswered start service before → ∀ m,
      ((run { loader := start } before).get service).outcome = .ok m ↔
        ∃ document, documentAfter start service before = .ok document ∧
          Model.compile document service (lastFactory service before) = .ok m) := by
  refine ⟨compilations_le_one _ _ _, ?_, ?_, fun unanswered m => outcome_of_unanswered unanswered⟩
  · intro failure failed
    have unchanged := get_of_failure failed
    have missing : Keyed.get? (run { loader := start } before).models service = none := by
      cases there : Keyed.get? (run { loader := start } before).models service with
      | none => rfl
      | some m =>
        rw [get_of_compiled there] at failed
        cases failed
    refine ⟨unchanged, fun document factory m compiled => ?_⟩
    have same : run { loader := start } (before ++ [.get service, .register service document factory]) =
        (run { loader := start } before).after (.register service document factory) :=
      (run_append _ _ _).trans (congrArg (after · (.register service document factory)) unchanged)
    rw [same]
    rw [← (recorded_run start before).factory service missing] at compiled
    exact get_of_registered missing compiled
  · intro m given rest
    have there : Keyed.get? (run { loader := start } (before ++ .get service :: rest)).models
        service = some m := by
      rw [run_append]
      exact kept_of_run (models_of_get given) rest
    refine ⟨get_of_compiled there, fun document factory => ⟨register_of_compiled there _ _, ?_⟩⟩
    rw [after, register_of_compiled there]

end Registry

end ResourceGraph
