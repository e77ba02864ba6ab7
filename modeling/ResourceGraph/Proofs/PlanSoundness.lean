import ResourceGraph.Proofs.Attachment

/-!
Every step of a plan attaches something sound. The rules of a container are made by their owner in
the scope of the document, and each kind of rule checks what it reads; the reference from a child
back to its parent is checked by the step before it, so that its soundness rests on that step having
been possible.
-/

namespace ResourceGraph

open Outcome

/-- The identifiers declared at a site: none at the root, else those of the type at its place. -/
def Scope.Declares (scope : Scope) : Site → List String → Prop
  | .root, declared => declared = []
  | .resource index, declared => ∃ entry, scope[index]? = some entry ∧ entry.2.identifiers = declared

/-- Every type of the scope stands at the place and under the name by which it is referred to. -/
def Scope.Placed (scope : Scope) : Prop :=
  ∀ (index : Nat) (entry : String × TypeSignature), scope[index]? = some entry →
    entry.2.ref = ⟨index, entry.1⟩

/-- What is attached is sound for the owner with these identifiers. -/
def Attachment.Sound (scope : Scope) (declared : List String) : Attachment → Prop
  | .load o => o.Sound scope declared ∧ o.kind = .load
  | .operation _ o => o.Sound scope declared

/-- What the step attaches, if it can, is sound for the type that it is attached to. -/
def Step.Sound (scope : Scope) (step : Step) : Prop :=
  ∀ a, step.attachment = .ok a → ∃ declared, scope.Declares step.site declared ∧ a.Sound scope declared

variable {scope : Scope} {owner : Owner}

theorem Scope.declares_of_mem {name : String} {type : TypeSignature} (placed : scope.Placed)
    (there : (name, type) ∈ scope) : scope.Declares type.owner.site type.identifiers := by
  obtain ⟨index, found⟩ := List.mem_iff_getElem?.mp there
  have ref : type.ref = ⟨index, name⟩ := placed index (name, type) found
  exact ⟨(name, type), by simpa [ref] using found, rfl⟩

namespace Plan

theorem named_sound {name : String} {made : Except Failure Operation}
    (declares : scope.Declares owner.site owner.identifiers)
    (sound : ∀ o, made = .ok o → o.Sound scope owner.identifiers) :
    (named owner name made).Sound scope := by
  intro a attached
  obtain ⟨o, done, rfl⟩ := map_ok.mp attached
  exact ⟨_, declares, sound o done⟩

private theorem stop_sound {fault : Failure} : (stop owner fault).Sound scope := by
  intro a attached
  cases attached

private theorem load_sound {rule : LoadRule} (declares : scope.Declares owner.site owner.identifiers) :
    (load owner rule).Sound scope := by
  intro a attached
  obtain ⟨o, done, rfl⟩ := map_ok.mp attached
  exact ⟨_, declares, Scope.load_sound done⟩

private theorem hasMany_sound {name : String} {rule : HasManyRule} (declared : rule.Declared)
    (declares : scope.Declares owner.site owner.identifiers) :
    ∀ step ∈ hasMany scope owner name rule, step.Sound scope := by
  intro step member
  unfold hasMany at member
  split at member
  · rw [List.mem_singleton.mp member]
    exact stop_sound
  · next target found =>
    obtain ⟨key, there⟩ := Scope.mem_of_lookup found
    rcases List.mem_append.mp member with listed | single
    · obtain ⟨call, written, rfl⟩ := List.mem_map.mp listed
      exact named_sound declares fun o made =>
        Scope.enumeration_sound there (declared.enumerate call (by simpa using written)) made
    · unfold singularSteps at single
      split at single
      · cases single
      · split at single
        · rw [List.mem_singleton.mp single]
          exact stop_sound
        · rcases List.mem_append.mp single with created | referred
          · obtain ⟨call, written, rfl⟩ := List.mem_map.mp created
            exact named_sound declares fun o made =>
              Scope.creation_sound there (declared.create call (by simpa using written)) made
          · obtain ⟨build, written, rfl⟩ := List.mem_map.mp referred
            exact named_sound declares fun o made =>
              Scope.reference_sound there (declared.resource build (by simpa using written)) made

private theorem hasSome_sound {name : String} {rule : AssociationRule}
    (declared : rule.resource.Declared) (declares : scope.Declares owner.site owner.identifiers) :
    (hasSome scope owner name rule).Sound scope := by
  refine named_sound declares fun o made => ?_
  obtain ⟨target, found, made⟩ := bind_ok.mp made
  obtain ⟨key, there⟩ := Scope.mem_of_lookup found
  exact Scope.reference_sound there declared made

/-- The reference of a rule to one resource is sound, and its builder gives one. -/
theorem hasOne_made {name : String} {rule : AssociationRule} (declared : rule.resource.Declared)
    {a : Attachment} (attached : (hasOne scope owner name rule).attachment = .ok a) :
    ∃ o, a = .operation (Naming.snakeCase name) o ∧ o.Sound scope owner.identifiers ∧
      ∃ b, o.work = .reference b ∧ b.isPlural = false := by
  obtain ⟨o, made, rfl⟩ := map_ok.mp attached
  obtain ⟨target, found, made⟩ := bind_ok.mp made
  obtain ⟨key, there⟩ := Scope.mem_of_lookup found
  exact ⟨o, rfl, Scope.singleReference_sound there declared made⟩

private theorem container_sound {rules : ContainerRules} (declared : rules.Declared)
    (declares : scope.Declares owner.site owner.identifiers) :
    ∀ step ∈ container scope owner rules, step.Sound scope := by
  intro step member
  simp only [container, List.mem_append] at member
  rcases member with ((acts | manys) | somes) | ones
  · obtain ⟨entry, listed, rfl⟩ := List.mem_map.mp acts
    exact named_sound declares fun o made => Scope.action_sound (declared.actions entry listed) made
  · obtain ⟨entry, listed, within⟩ := List.mem_flatMap.mp manys
    exact hasMany_sound (declared.hasMany entry listed) declares step within
  · obtain ⟨entry, listed, rfl⟩ := List.mem_map.mp somes
    exact hasSome_sound (declared.hasSome entry listed) declares
  · obtain ⟨entry, listed, rfl⟩ := List.mem_map.mp ones
    intro a attached
    obtain ⟨o, rfl, sound, _⟩ := hasOne_made (declared.hasOne entry listed) attached
    exact ⟨_, declares, sound⟩

theorem reads_of_checkSources {pairs : List (String × String)}
    (checked : Scope.checkSources owner (identifierSources pairs) = .ok ()) :
    ∀ pair ∈ pairs, pair.1 ∈ owner.identifiers := by
  intro pair listed
  exact Scope.reads_of_checkSources checked ⟨.identifier, pair.1, pair.2⟩
    (List.mem_map.mpr ⟨pair, listed, rfl⟩) rfl

/-- The step down checks the identifiers of both sides, also for the step back up. -/
theorem child_sound {key : String} {parent : TypeSignature} {shared : Keyed String} {name : String}
    (placed : scope.Placed) (there : (key, parent) ∈ scope)
    (possible : ∀ step ∈ child scope parent shared name, ∃ a, step.attachment = .ok a) :
    ∀ step ∈ child scope parent shared name, step.Sound scope := by
  unfold child at possible ⊢
  split
  · intro step member
    rw [List.mem_singleton.mp member]
    exact stop_sound
  · next target found =>
    rw [found] at possible
    obtain ⟨below, inside⟩ := Scope.mem_of_lookup found
    obtain ⟨a, attached⟩ := possible _ List.mem_cons_self
    obtain ⟨o, down, rfl⟩ := map_ok.mp attached
    obtain ⟨_, checkedDown, down⟩ := bind_ok.mp down
    obtain ⟨_, checkedUp, down⟩ := bind_ok.mp down
    simp only [List.mem_cons, List.not_mem_nil, or_false, forall_eq_or_imp, forall_eq]
    constructor
    · refine named_sound (Scope.declares_of_mem placed there) fun made same => ?_
      obtain ⟨_, _, same⟩ := bind_ok.mp same
      obtain ⟨_, _, same⟩ := bind_ok.mp same
      exact related_sound _ inside (reads_of_checkSources checkedDown) same
    · exact named_sound (Scope.declares_of_mem placed inside) fun made same =>
        related_sound _ there (reads_of_checkSources checkedUp) same

/-- **Every step of a plan that can be carried out is sound.** -/
theorem ofDocument_sound {d : Document} {service : String} (placed : scope.Placed)
    (declared : d.Declared)
    (possible : ∀ step ∈ ofDocument d service scope, ∃ a, step.attachment = .ok a) :
    ∀ step ∈ ofDocument d service scope, step.Sound scope := by
  intro step member
  have both : ∀ {type rule}, (type, rule) ∈ (scope.map Prod.snd).zip (d.resources.map Prod.snd) →
      (∃ name, (name, type) ∈ scope) ∧ rule.container.Declared := by
    intro type rule side
    obtain ⟨types, rules⟩ := List.of_mem_zip side
    obtain ⟨⟨name, _⟩, entry, rfl⟩ := List.mem_map.mp types
    obtain ⟨written, listed, rfl⟩ := List.mem_map.mp rules
    exact ⟨⟨name, entry⟩, declared.resources written listed⟩
  have within := possible step
  simp only [ofDocument, List.mem_append] at member within possible
  rcases member with ((loads | served) | owned) | shared
  · obtain ⟨⟨type, rule⟩, side, loads⟩ := List.mem_flatMap.mp loads
    obtain ⟨load, written, rfl⟩ := List.mem_map.mp loads
    obtain ⟨⟨name, there⟩, _⟩ := both side
    exact load_sound (Scope.declares_of_mem placed there)
  · refine container_sound declared.service ?_ step served
    rfl
  · obtain ⟨⟨type, rule⟩, side, owned⟩ := List.mem_flatMap.mp owned
    obtain ⟨⟨name, there⟩, fits⟩ := both side
    exact container_sound fits (Scope.declares_of_mem placed there) step owned
  · obtain ⟨⟨type, rule⟩, side, families⟩ := List.mem_flatMap.mp shared
    obtain ⟨family, written, siblings⟩ := List.mem_flatMap.mp families
    obtain ⟨name, listed, steps⟩ := List.mem_flatMap.mp siblings
    obtain ⟨⟨key, there⟩, _⟩ := both side
    refine child_sound placed there (fun other sibling => possible other (.inr ?_)) step steps
    exact List.mem_flatMap.mpr ⟨_, side, List.mem_flatMap.mpr ⟨family, written,
      List.mem_flatMap.mpr ⟨name, listed, sibling⟩⟩⟩

theorem mem_of_service {d : Document} {service : String} {step : Step}
    (carried : step ∈ container scope ⟨.root, service, []⟩ d.service) :
    step ∈ ofDocument d service scope := by
  simp only [ofDocument, List.mem_append]
  exact .inl (.inl (.inr carried))

theorem mem_of_resource {d : Document} {service name key : String} {step : Step} {index : Nat}
    {type : TypeSignature} {rules : ResourceRules} (there : scope[index]? = some (key, type))
    (written : d.resources[index]? = some (name, rules))
    (carried : step ∈ container scope type.owner rules.container) :
    step ∈ ofDocument d service scope := by
  have side : (type, rules) ∈ (scope.map Prod.snd).zip (d.resources.map Prod.snd) :=
    List.mem_of_getElem? (i := index) (by simp [List.getElem?_zip_eq_some, there, written])
  simp only [ofDocument, List.mem_append]
  exact .inl (.inr (List.mem_flatMap.mpr ⟨(type, rules), side, carried⟩))

end Plan

end ResourceGraph
