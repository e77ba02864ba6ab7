import ResourceGraph.Proofs.CompileFaults

/-!
Whatever is given as a document, and however far beyond the limits it is: compiling it answers with
a model, with a fault of the definition, or with what is too long, too large or too deep to be read
or written. So no service is found to be unknown by compiling a document.
-/

namespace ResourceGraph

open Outcome

variable {α β σ : Type}

/-- What goes wrong is a fault of the definition, or something that cannot be read or written at
all. -/
def Answers (x : Except Failure α) : Prop :=
  ∀ f, x = .error f → (∃ fault, f = .definition fault) ∨ ∃ m, f = .misuse m

namespace Answers

theorem of_accounted {x : Except Failure α} (accounted : Accounted [] x) : Answers x :=
  fun f failed => .inl (accounted.definite f failed)

theorem ok (a : α) : Answers (.ok a) := nofun

theorem pure (a : α) : Answers (pure a : Except Failure α) := nofun

theorem fault (f : DefinitionFault) : Answers (.error (.definition f) : Except Failure α) :=
  fun _ failed => .inl ⟨f, (Except.error.inj failed).symm⟩

theorem misuse (m : Misuse) : Answers (.error (.misuse m) : Except Failure α) :=
  fun _ failed => .inr ⟨m, (Except.error.inj failed).symm⟩

theorem written (v : Json) (text : String) : Answers (written v text) := by
  unfold ResourceGraph.written
  split
  · exact misuse _
  · exact ok _

theorem bind {x : Except Failure α} {f : α → Except Failure β} (first : Answers x)
    (rest : ∀ a, Answers (f a)) :
    Answers (x >>= f) := by
  cases x with
  | error failure => exact fun _ failed => first _ (congrArg Except.error (Except.error.inj failed))
  | ok a => exact rest a

/-- A fault that quotes what was given, where that can be written. -/
theorem quoting (fault : String → DefinitionFault) (given : Json) :
    Answers (faultQuoting fault given : Except Failure α) :=
  bind (written given _) fun _ => Answers.fault _

theorem map {x : Except Failure α} {f : α → β} (answers : Answers x) : Answers (x.map f) := by
  cases x with
  | error failure => exact fun _ failed => answers _ (congrArg Except.error (Except.error.inj failed))
  | ok a => exact nofun

theorem ite {x y : Except Failure α} {p : Prop} [Decidable p] (first : Answers x) (second : Answers y) :
    Answers (if p then x else y) := by
  split
  · exact first
  · exact second

theorem mapM {f : α → Except Failure β} {xs : List α} (each : ∀ x, Answers (f x)) :
    Answers (xs.mapM f) := by
  intro failure failed
  obtain ⟨x, _, one⟩ := error_of_mapM failed
  exact each x failure one

private theorem foldlM {f : σ → α → Except Failure σ} {xs : List α}
    (each : ∀ x ∈ xs, ∀ s, Answers (f s x)) (s : σ) :
    Answers (xs.foldlM f s) := by
  induction xs generalizing s with
  | nil => exact nofun
  | cons x xs ih =>
    rw [List.foldlM_cons]
    exact .bind (each x List.mem_cons_self s) fun t =>
      ih (fun y member => each y (List.mem_cons_of_mem x member)) t

end Answers

/-! ## Parts of operations -/

theorem pathCompile_answers (text : String) : Answers (Path.compile text) := by
  unfold Path.compile
  split
  · exact .ok _
  · exact .fault _
  · exact .misuse _
  · exact .misuse _

namespace Projection

private theorem readTarget_answers (expression : String) : Answers (readTarget expression) := by
  unfold readTarget
  split
  · exact .ok _
  · exact .fault _
  · exact .misuse _

private theorem integerLiteral_answers (given : Json) : Answers (integerLiteral given) := by
  unfold integerLiteral
  split
  · exact .ok _
  · dsimp only
    split
    · exact .misuse _
    · split
      · exact .ok _
      · exact .quoting _ _
  · split
    · exact .ok _
    · exact .quoting _ _
  · exact .quoting _ _

private theorem booleanLiteral_answers (given : Json) : Answers (booleanLiteral given) := by
  unfold booleanLiteral
  split
  · exact .ok _
  · exact .ok _
  · exact .ok _
  · exact .ite (.ok _) (.ite (.ok _) (.quoting _ _))
  · exact .quoting _ _

private theorem make_answers (target : String) (kind : ProjectionKind) (given : Json) :
    Answers (make target kind given) := by
  have source : Answers (sourceOf kind given) := by
    cases kind with
    | identifier | dataMember => exact .ok _
    | string => exact .map (.written given _)
    | integer => exact .map (integerLiteral_answers given)
    | boolean => exact .map (booleanLiteral_answers given)
  exact .bind source fun _ => .bind (readTarget_answers target) fun _ => .pure _

end Projection

theorem IdentifierSource.make_answers (kind : SourceKind) (source target : String) :
    Answers (IdentifierSource.make kind source target) :=
  .ite (.bind (pathCompile_answers source) fun _ => .pure _) (.ok _)

theorem Builder.make_answers (t : TypeSignature) (sources : List IdentifierSource)
    (path : Option String) :
    Answers (Builder.make (some t) sources path) := by
  refine .bind (.ite (.fault _) (.ite (.fault _) (.ok _))) fun completed => ?_
  dsimp only
  split
  · exact .bind (pathCompile_answers _) fun _ => .pure _
  · exact .pure _

theorem Operation.make_answers (kind : OperationKind) (parts : Parts) :
    Answers (Operation.make kind parts) := by
  refine .bind (.of_accounted assemble_accounted) fun o => ?_
  split
  · exact .ite (.pure _) (.bind (pathCompile_answers _) fun _ => .pure _)
  · exact .pure _

/-! ## Rules -/

namespace Scope

variable {scope : Scope} {owner : Owner} {target : TypeSignature}

theorem lookup_answers (rule : String) (type : Option String) :
    Answers (scope.lookup owner rule type) := by
  unfold lookup
  split
  · exact .fault _
  · split
    · exact .ok _
    · exact .fault _

private theorem given_answers (operation : String) (rule : ParamRule) :
    Answers (given owner operation rule) := by
  unfold given
  split
  · exact .bind (.written _ _) fun _ => .ite (.pure _) (.fault _)
  · exact .ok _

theorem request_answers (rule : RequestRule) : Answers (request owner rule) :=
  .bind (.mapM fun p => .bind (given_answers _ p) fun _ => Projection.make_answers _ _ _) fun _ =>
    .ite (.fault _) (.ok _)

theorem builder_answers (rule : BuildRule) : Answers (builder owner target rule) :=
  .bind (.mapM fun _ => IdentifierSource.make_answers _ _ _) fun sources =>
    .bind (.of_accounted (checkSources_accounted sources)) fun _ => Builder.make_answers _ _ _

private theorem referenceBuilder_answers (name : String) (rule : BuildRule) :
    Answers (referenceBuilder owner name target rule) :=
  .bind (builder_answers rule) fun _ => .ite (.fault _) (.pure _)

private theorem action_answers (name : String) (rule : ActionRule) :
    Answers (scope.action owner name rule) := by
  refine .bind (request_answers _) fun call => ?_
  split
  · exact .bind (lookup_answers _ _) fun _ => .bind (builder_answers _) fun _ =>
      Operation.make_answers _ _
  · exact Operation.make_answers _ _
  · exact Operation.make_answers _ _

private theorem load_answers (rule : LoadRule) : Answers (load owner rule) :=
  .bind (request_answers _) fun _ => Operation.make_answers _ _

private theorem enumeration_answers (name : String) (rule : CallRule) :
    Answers (enumeration owner name target rule) :=
  .bind (builder_answers _) fun _ =>
    .ite (.bind (request_answers _) fun _ => Operation.make_answers _ _) (.fault _)

private theorem creation_answers (rule : CallRule) : Answers (creation owner target rule) :=
  .bind (request_answers _) fun _ => .bind (builder_answers _) fun _ => Operation.make_answers _ _

private theorem reference_answers (name : String) (rule : BuildRule) :
    Answers (reference owner name target rule) :=
  .bind (referenceBuilder_answers name rule) fun _ => Operation.make_answers _ _

private theorem singleReference_answers (name : String) (rule : BuildRule) :
    Answers (singleReference owner name target rule) :=
  .bind (referenceBuilder_answers name rule) fun _ => .ite (.fault _) (Operation.make_answers _ _)

end Scope

/-! ## Plans -/

namespace Plan

variable {scope : Scope} {owner : Owner} {target : TypeSignature}

private theorem stop_answers {fault : Failure} {x : Except Failure α} (answers : Answers x)
    (failed : x = .error fault) :
    Answers (stop owner fault).attachment := by
  rw [stop]
  rcases answers fault failed with ⟨f, rfl⟩ | ⟨m, rfl⟩
  · exact .fault f
  · exact .misuse m

private theorem related_answers (sources : List IdentifierSource) : Answers (related target sources) :=
  .bind (Builder.make_answers _ _ _) fun _ => Operation.make_answers _ _

theorem named_answers (name : String) {x : Except Failure Operation} (answers : Answers x) :
    Answers (named owner name x).attachment := .map answers

private theorem singularSteps_answers (name : String) (rule : HasManyRule) :
    ∀ step ∈ singularSteps owner name target rule, Answers step.attachment := by
  unfold singularSteps
  split
  · intro step member
    cases member
  · split
    · exact List.forall_mem_singleton.mpr (.fault _)
    · refine List.forall_mem_append.mpr
        ⟨List.forall_mem_map.mpr fun call _ => ?_, List.forall_mem_map.mpr fun build _ => ?_⟩
      · exact named_answers _ (Scope.creation_answers call)
      · exact named_answers _ (Scope.reference_answers name build)

private theorem hasMany_answers (name : String) (rule : HasManyRule) :
    ∀ step ∈ hasMany scope owner name rule, Answers step.attachment := by
  unfold hasMany
  split
  · next fault failed =>
      exact List.forall_mem_singleton.mpr (stop_answers (Scope.lookup_answers _ _) failed)
  · refine List.forall_mem_append.mpr
      ⟨List.forall_mem_map.mpr fun call _ => ?_, singularSteps_answers name rule⟩
    exact named_answers _ (Scope.enumeration_answers name call)

private theorem container_answers (rules : ContainerRules) :
    ∀ step ∈ container scope owner rules, Answers step.attachment := by
  simp only [container, List.forall_mem_append, List.forall_mem_map, List.forall_mem_flatMap]
  refine ⟨⟨⟨fun entry _ => ?_, fun entry _ => hasMany_answers _ _⟩, fun entry _ => ?_⟩,
    fun entry _ => ?_⟩
  · exact named_answers _ (Scope.action_answers _ _)
  · exact named_answers _ (.bind (Scope.lookup_answers _ _) fun _ => Scope.reference_answers _ _)
  · exact named_answers _ (.bind (Scope.lookup_answers _ _) fun _ => Scope.singleReference_answers _ _)

private theorem child_answers (parent : TypeSignature) (shared : Keyed String) (name : String) :
    ∀ step ∈ child scope parent shared name, Answers step.attachment := by
  unfold child
  split
  · next fault failed =>
      exact List.forall_mem_singleton.mpr (stop_answers (Scope.lookup_answers _ _) failed)
  · refine List.forall_mem_cons.mpr ⟨.map (.bind ?_ fun _ => .bind ?_ fun _ => related_answers _),
      List.forall_mem_singleton.mpr (.map (related_answers _))⟩
    · exact .of_accounted (Scope.checkSources_accounted _)
    · exact .of_accounted (Scope.checkSources_accounted _)

private theorem ofDocument_answers (d : Document) (service : String) (scope : Scope) :
    ∀ step ∈ ofDocument d service scope, Answers step.attachment := by
  simp only [ofDocument, List.forall_mem_append, List.forall_mem_map, List.forall_mem_flatMap]
  refine ⟨⟨⟨fun side _ rule _ => ?_, container_answers _⟩, fun side _ => container_answers _⟩,
    fun side _ rule _ => ?_⟩
  · exact .map (Scope.load_answers _)
  · exact List.forall_mem_flatMap.mpr fun name _ => child_answers _ _ _

end Plan

/-! ## Compiling -/

theorem Draft.take_answers (d : Draft) {step : Step} (answers : Answers step.attachment) :
    Answers (d.take step) :=
  .bind answers fun a => .of_accounted (change_accounted d step.site fun t => attachTo_accounted t a)

theorem Model.bareTypes_answers (d : Document) (factory : Option Nat) :
    Answers (bareTypes d factory) := by
  refine .mapM fun entry => .bind ?_ fun _ => .pure _
  exact .foldlM (fun name _ t => .of_accounted (t.addIdentifier_accounted name)) _

theorem Model.ofDocument_answers (d : Document) (service : String) (factory : Option Nat) :
    Answers (ofDocument d service factory) := by
  refine .bind (bareTypes_answers d factory) fun bares => ?_
  have planned := Plan.ofDocument_answers d service (scopeOf bares)
  refine .bind (.foldlM (fun step member e => e.take_answers (planned step member)) _) fun _ => ?_
  exact .bind (.foldlM (fun type _ e => .of_accounted (e.expose_accounted type)) _) fun _ => .pure _

/-- Compiling never ends in a service that is not known. -/
theorem Model.compile_knows (given : Json) (service : String) (factory : Option Nat) (name : String) :
    compile given service factory ≠ .error (.unknownService name) := by
  have answers : Answers (compile given service factory) := by
    unfold compile
    split
    · exact ofDocument_answers _ service factory
    · exact .fault _
  intro failed
  rcases answers _ failed with ⟨_, same⟩ | ⟨_, same⟩ <;> cases same

end ResourceGraph
