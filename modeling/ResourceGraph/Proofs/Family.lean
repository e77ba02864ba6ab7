import ResourceGraph.Proofs.CompiledTable
import ResourceGraph.Proofs.Referring

/-!
Parents and children. A rule for child types names the identifiers that a child shares with its
parent, and the compiler makes a reference down and a reference up of it. Where the rule covers the
parent and gives every shared identifier a place of its own in the child, the two undo each other:
whoever goes down and up again, or up and down again with what the parent does not know, comes to a
resource that has exactly the identifiers and the client of the first one. Nothing is called on the
way.
-/

namespace ResourceGraph

open ResourceGraph.Graph Naming Outcome

namespace Keyed

variable {α : Type}

/-- Maps with the same keys in the same order, and the same values under them, are the same. -/
theorem eq_of_get? {m n : Keyed α} (same : keys m = keys n) (distinct : (keys m).Nodup)
    (agree : ∀ key ∈ keys m, get? m key = get? n key) : m = n := by
  refine List.ext_getElem? fun i => ?_
  have places := congrArg (·[i]?) same
  simp only [keys, List.getElem?_map] at places
  cases first : m[i]? with
  | none =>
    cases second : n[i]? with
    | none => rfl
    | some entry => simp [first, second] at places
  | some entry =>
    cases second : n[i]? with
    | none => simp [first, second] at places
    | some entry' =>
      obtain ⟨key, value⟩ := entry
      obtain ⟨key', value'⟩ := entry'
      obtain rfl : key = key' := by simpa [first, second] using places
      have found := agree key (List.mem_map_of_mem (List.mem_of_getElem? first))
      rw [get?_of_getElem? distinct first, get?_of_getElem? (same ▸ distinct) second] at found
      rw [Option.some.inj found]

/-- What is stored under a key that is listed is found. -/
theorem get?_of_mem_keys {m : Keyed α} {key : String} (member : key ∈ keys m) :
    ∃ value, get? m key = some value := by
  cases found : get? m key with
  | some value => exact ⟨value, rfl⟩
  | none => exact absurd member (get?_eq_none_iff.mp found)

end Keyed

/-! ## The references of a rule -/

namespace SubResourcesRule

/-- The rule shares every identifier of the parent, with identifiers of the child that are pairwise
distinct. The name `self` cannot be given an identifier by, and nobody has it. -/
structure Pairs (rule : SubResourcesRule) (parent child : List String) : Prop where
  covers : ∀ name ∈ parent, name ∈ Keyed.keys (Plan.sharedIdentifiers rule)
  apart : ((Plan.sharedIdentifiers rule).map Prod.snd).Nodup
  selfless : "self" ∉ parent ∧ "self" ∉ child

/-- The identifiers of the child that it does not share. -/
def remaining (rule : SubResourcesRule) (child : List String) : List String :=
  child.filter fun name => !((Plan.sharedIdentifiers rule).map Prod.snd).contains name

/-- An argument is given, and is not null, exactly when the child has an identifier that it does not
share. -/
def Takes (rule : SubResourcesRule) (child : List String) : Option Datum → Prop
  | none => rule.remaining child = []
  | some v => rule.remaining child ≠ [] ∧ v ≠ .null

/-- What a child has under the identifier that it does not share, if there is one. -/
def rest (rule : SubResourcesRule) (child : List String) (identifiers : Keyed Datum) : Option Datum :=
  (rule.remaining child).head?.bind (Keyed.get? identifiers)

/-- How the parent refers to the child, and the child to the parent. -/
def downName (parent child : String) : String := snakeCase (withoutParent child parent)

def upName (parent : String) : String := snakeCase parent

/-- The builder of the reference down. -/
def downBuilder (rule : SubResourcesRule) (child : TypeRef) (declared : List String) : Builder :=
  ⟨child, Plan.identifierSources (Plan.sharedIdentifiers rule) ++
    (rule.remaining declared).map IdentifierSource.ofArgument, none⟩

/-- The builder of the reference up, where the rule covers the parent. -/
def upBuilder (rule : SubResourcesRule) (parent : TypeRef) : Builder :=
  ⟨parent, Plan.identifierSources ((Plan.sharedIdentifiers rule).map Prod.swap), none⟩

end SubResourcesRule

/-- Two types of the model refer to each other, with what the rule says that they share. -/
structure Model.Relates (m : Model) (rule : SubResourcesRule) (parent child : TypeRef)
    (P C : ResourceType) :
    Prop where
  above : m.types[parent.index]? = some (parent.name, P)
  below : m.types[child.index]? = some (child.name, C)
  shares : ∀ pair ∈ Plan.sharedIdentifiers rule, pair.1 ∈ P.identifiers ∧ pair.2 ∈ C.identifiers
  single : (rule.remaining C.identifiers).length ≤ 1
  down : ∃ o, Keyed.get? P.operations (SubResourcesRule.downName parent.name child.name) = some o ∧
    o.work = .reference (rule.downBuilder child C.identifiers)
  up : rule.Pairs P.identifiers C.identifiers → ∃ o,
    Keyed.get? C.operations (SubResourcesRule.upName parent.name) = some o ∧
      o.work = .reference (rule.upBuilder parent)

/-- What completing the sources adds are the arguments for those identifiers that are left open. -/
theorem Builder.completed {type : TypeSignature} {sources completed : List IdentifierSource}
    (done : Builder.complete type sources = .ok completed) :
    completed = sources ++ (type.identifiers.filter fun name =>
        !(sources.map IdentifierSource.target).contains name).map IdentifierSource.ofArgument ∧
      (type.identifiers.filter fun name => !(sources.map IdentifierSource.target).contains
        name).length ≤ 1 := by
  unfold Builder.complete at done
  dsimp only at done
  split at done
  · cases done
  · split at done
    · cases done
    · next few =>
      cases done
      exact ⟨rfl, Nat.le_of_not_lt few⟩

namespace Plan

theorem targets_of_identifierSources (pairs : List (String × String)) :
    (identifierSources pairs).map IdentifierSource.target = pairs.map Prod.snd := by
  simp [identifierSources, Function.comp_def]

/-- A related reference is made by the builder with the completed sources. -/
theorem of_related {target : TypeSignature} {sources : List IdentifierSource} {o : Operation}
    (made : related target sources = .ok o) :
    ∃ completed, Builder.complete target sources = .ok completed ∧
      o.work = .reference ⟨target.ref, completed, none⟩ := by
  obtain ⟨b, built, made⟩ := bind_ok.mp made
  obtain ⟨targeted, completed, path, _⟩ := Builder.of_make built
  obtain ⟨assembled, _⟩ := Operation.of_make made
  cases assembled
  refine ⟨b.sources, completed, ?_⟩
  rw [← targeted, ← path]

/-- The steps for a child that can be taken attach a reference down and one up. -/
theorem of_child {scope : Scope} {parent : TypeSignature} {shared : Keyed String} {name : String}
    (possible : Possible (child scope parent shared name)) :
    ∃ target down up, scope.lookup parent.owner "subResources" (some name) = .ok target ∧
      (∀ pair ∈ shared, pair.1 ∈ parent.identifiers ∧ pair.2 ∈ target.identifiers) ∧
      related target (identifierSources shared) = .ok down ∧
      related parent (identifierSources (shared.map Prod.swap)) = .ok up ∧
      ⟨parent.owner.site, .ok (.operation (snakeCase (withoutParent name parent.ref.name)) down)⟩ ∈
        child scope parent shared name ∧
      ⟨target.owner.site, .ok (.operation (snakeCase parent.ref.name) up)⟩ ∈
        child scope parent shared name := by
  unfold child at possible ⊢
  cases found : scope.lookup parent.owner "subResources" (some name) with
  | error fault =>
    rw [found] at possible
    exact absurd possible not_possible_stop
  | ok target =>
    rw [found] at possible
    obtain ⟨a, attachedDown⟩ := possible _ List.mem_cons_self
    obtain ⟨down, madeDown, _⟩ := map_ok.mp attachedDown
    obtain ⟨_, checkedDown, relatedDown⟩ := bind_ok.mp madeDown
    obtain ⟨_, checkedUp, relatedDown⟩ := bind_ok.mp relatedDown
    obtain ⟨b, attachedUp⟩ := possible _ (List.mem_cons_of_mem _ List.mem_cons_self)
    obtain ⟨up, relatedUp, _⟩ := map_ok.mp attachedUp
    have checked : ∀ pair ∈ shared, pair.1 ∈ parent.identifiers ∧ pair.2 ∈ target.identifiers :=
      fun pair listed => ⟨reads_of_checkSources checkedDown pair listed,
        reads_of_checkSources checkedUp pair.swap (List.mem_map_of_mem listed)⟩
    refine ⟨target, down, up, rfl, checked, relatedDown, relatedUp, ?_, ?_⟩
    · refine List.mem_cons.mpr (.inl ?_)
      unfold named
      rw [madeDown]
      rfl
    · refine List.mem_cons_of_mem _ (List.mem_singleton.mpr ?_)
      unfold named
      rw [relatedUp]
      rfl

private theorem mem_of_children {d : Document} {service : String} {scope : Scope} {place : Nat}
    {name key child : String} {type : TypeSignature} {rules : ResourceRules}
    {rule : SubResourcesRule} {step : Step} (there : scope[place]? = some (key, type))
    (written : d.resources[place]? = some (name, rules)) (declared : rules.subResources = some rule)
    (listed : child ∈ rule.resources)
    (carried : step ∈ Plan.child scope type (sharedIdentifiers rule) child) :
    step ∈ ofDocument d service scope := by
  have side : (type, rules) ∈ (scope.map Prod.snd).zip (d.resources.map Prod.snd) :=
    List.mem_of_getElem? (i := place) (by simp [List.getElem?_zip_eq_some, there, written])
  simp only [ofDocument, List.mem_append]
  exact .inr (List.mem_flatMap.mpr ⟨(type, rules), side, List.mem_flatMap.mpr ⟨rule, by simp [declared],
    List.mem_flatMap.mpr ⟨child, listed, carried⟩⟩⟩)

end Plan

namespace Model

/-- What the plan attaches to a type is an operation of the type that was compiled. -/
theorem Compiled.get?_operations {d : Document} {service : String} {factory : Option Nat}
    {bares : Keyed ResourceType} {planned exposed : Draft}
    (c : Compiled d service factory bares planned exposed) (declared : d.Declared) {place : Nat}
    {key name : String} {t : ResourceType} {o : Operation} (there : bares[place]? = some (key, t))
    (step : ⟨.resource place, .ok (.operation name o)⟩ ∈ Plan.ofDocument d service (scopeOf bares)) :
    ∃ u : ResourceType, (exposed.types.map fun (name, type) => (name, type.freeze))[place]? =
      some (key, u) ∧
      u.identifiers = t.identifiers ∧ Keyed.get? u.operations name = some o := by
  obtain ⟨_, u, found, grown⟩ := c.grown declared there
  have member : (name, o) ∈ u.operations := grown.attached _ step rfl name o rfl
  obtain ⟨index, listed⟩ := List.mem_iff_getElem?.mp member
  refine ⟨u.freeze, ?_, grown.identifiers, Keyed.get?_of_getElem? grown.names.operations listed⟩
  rw [List.getElem?_map, found]
  rfl

/-- The types of a rule for children relate as it says. -/
theorem relates_of_compile {given : Json} {service : String} {factory : Option Nat} {m : Model}
    (compiled : compile given service factory = .ok m) :
    ∃ d, Document.read given = .accepted d ∧ ∀ place parent rules rule child,
      d.resources[place]? = some (parent, rules) → rules.subResources = some rule →
        child ∈ rule.resources →
        ∃ index P C, Keyed.indexOf? d.resources child = some index ∧
          m.Relates rule ⟨place, parent⟩ ⟨index, child⟩ P C := by
  obtain ⟨d, read, declared, made⟩ := declared_of_compile compiled
  obtain ⟨bares, planned, exposed, c, rfl⟩ := compiled_of_document made
  have same := scope_of_bareTypes c.bare
  refine ⟨d, read, fun place parent rules rule child written shares listed => ?_⟩
  obtain ⟨t, there⟩ := (of_bareTypes c.bare place).2 parent rules written
  have signature : (scopeOf bares)[place]? = some (parent, ⟨⟨place, parent⟩, t.identifiers⟩) := by
    rw [getElem?_scopeOf, there]
    rfl
  have carried : ∀ step ∈ Plan.child (scopeOf bares) ⟨⟨place, parent⟩, t.identifiers⟩
      (Plan.sharedIdentifiers rule) child, step ∈ Plan.ofDocument d service (scopeOf bares) :=
    fun step => Plan.mem_of_children signature written shares listed
  obtain ⟨target, down, up, found, both, madeDown, madeUp, stepDown, stepUp⟩ :=
    Plan.of_child fun step member => c.possible step (carried step member)
  have index := same.index_of_lookup found
  have label : child = target.ref.name := Option.some.inj (same.placed.name_of_lookup found)
  obtain ⟨key, inside⟩ := Scope.mem_of_lookup found
  obtain ⟨i, placed⟩ := List.mem_iff_getElem?.mp inside
  have ref : target.ref = ⟨i, key⟩ := same.placed i _ placed
  rw [getElem?_scopeOf] at placed
  obtain ⟨⟨key', t'⟩, below, entry⟩ := Option.map_eq_some_iff.mp placed
  obtain ⟨rfl, rfl⟩ := Prod.mk.inj entry
  obtain rfl : child = key' := label
  obtain ⟨P, above, sameP, hasDown⟩ := c.get?_operations declared there (carried _ stepDown)
  obtain ⟨C, under, sameC, hasUp⟩ := c.get?_operations declared below (carried _ stepUp)
  obtain ⟨completed, done, workDown⟩ := Plan.of_related madeDown
  obtain ⟨completed', done', workUp⟩ := Plan.of_related madeUp
  obtain ⟨rfl, few⟩ := Builder.completed done
  obtain ⟨rfl, _⟩ := Builder.completed done'
  rw [Plan.targets_of_identifierSources] at few workDown workUp
  refine ⟨i, P, C, index, above, under, ?_, ?_, ⟨down, hasDown, ?_⟩, fun pairs => ⟨up, hasUp, ?_⟩⟩
  · rw [sameP, sameC]
    exact both
  · rw [SubResourcesRule.remaining, sameC]
    exact few
  · rw [workDown, SubResourcesRule.downBuilder, SubResourcesRule.remaining, sameC]
  · have none : t.identifiers.filter (fun name =>
        !(((Plan.sharedIdentifiers rule).map Prod.swap).map Prod.snd).contains name) = [] := by
      rw [List.filter_eq_nil_iff]
      intro name member
      have key := pairs.covers name (sameP ▸ member)
      rw [Keyed.keys] at key
      simpa [Function.comp_def] using key
    dsimp only at workUp
    rw [workUp, none, List.map_nil, List.append_nil, SubResourcesRule.upBuilder]

end Model

/-! ## The builders of a rule -/

namespace SubResourcesRule

variable {rule : SubResourcesRule} {parent child : TypeRef} {P C : List String}

theorem mem_downBuilder {s : IdentifierSource} : s ∈ (rule.downBuilder child C).sources ↔
    (∃ pair ∈ Plan.sharedIdentifiers rule, s = ⟨.identifier, pair.1, pair.2⟩) ∨
      ∃ name ∈ rule.remaining C, s = .ofArgument name := by
  simp only [downBuilder, Plan.identifierSources, List.mem_append, List.mem_map, eq_comm]

theorem mem_upBuilder {s : IdentifierSource} : s ∈ (rule.upBuilder parent).sources ↔
    ∃ pair ∈ Plan.sharedIdentifiers rule, s = ⟨.identifier, pair.2, pair.1⟩ := by
  simp only [upBuilder, Plan.identifierSources, List.map_map, List.mem_map, eq_comm]
  rfl

theorem mem_remaining {name : String} : name ∈ rule.remaining C ↔
    name ∈ C ∧ ∀ pair ∈ Plan.sharedIdentifiers rule, pair.2 ≠ name := by
  simp only [remaining, List.mem_filter, Bool.not_eq_true', List.contains_eq_mem,
    decide_eq_false_iff_not,
    List.mem_map, not_exists, not_and]

private theorem downBuilder_requires :
    (rule.downBuilder child C).requiresArgument = !(rule.remaining C).isEmpty := by
  unfold Builder.requiresArgument downBuilder
  dsimp only
  rw [List.getLast?_append, List.getLast?_map]
  cases last : (rule.remaining C).getLast? with
  | some name =>
    have some : (rule.remaining C).isEmpty = false := by
      cases left : rule.remaining C with
      | nil => simp [left] at last
      | cons _ _ => rfl
    rw [some]
    rfl
  | none =>
    rw [List.getLast?_eq_none_iff] at last
    rw [last, Option.map_none, Option.none_or, Plan.identifierSources, List.getLast?_map]
    cases (Plan.sharedIdentifiers rule).getLast? <;> rfl

private theorem upBuilder_requires : (rule.upBuilder parent).requiresArgument = false := by
  unfold Builder.requiresArgument upBuilder
  dsimp only
  rw [Plan.identifierSources, List.getLast?_map]
  cases ((Plan.sharedIdentifiers rule).map Prod.swap).getLast? <;> rfl

variable (shares : ∀ pair ∈ Plan.sharedIdentifiers rule, pair.1 ∈ P ∧ pair.2 ∈ C)

include shares

private theorem downBuilder_draws (pairs : rule.Pairs P C) (distinct : C.Nodup)
    (plain : Builder.dataKey ∉ C) :
    (rule.downBuilder child C).Draws where
  kinds s member := by
    rcases mem_downBuilder.mp member with ⟨_, _, rfl⟩ | ⟨_, _, rfl⟩
    · exact .inl rfl
    · exact .inr rfl
  apart := by
    have targets : (rule.downBuilder child C).sources.map IdentifierSource.target =
        (Plan.sharedIdentifiers rule).map Prod.snd ++ rule.remaining C := by
      simp [downBuilder, Plan.targets_of_identifierSources, IdentifierSource.ofArgument,
        Function.comp_def]
    rw [targets, List.nodup_append]
    refine ⟨pairs.apart, distinct.filter _, ?_⟩
    rintro _ listed name left rfl
    obtain ⟨pair, member, same⟩ := List.mem_map.mp listed
    exact (mem_remaining.mp left).2 pair member same
  plain s member := by
    rcases mem_downBuilder.mp member with ⟨pair, listed, rfl⟩ | ⟨name, left, rfl⟩
    · rintro same
      exact plain (same ▸ (shares pair listed).2)
    · rintro same
      exact plain (same ▸ (mem_remaining.mp left).1)
  bare := rfl

private theorem downBuilder_covers : (rule.downBuilder child C).Covers C where
  known s member := by
    rcases mem_downBuilder.mp member with ⟨pair, listed, rfl⟩ | ⟨name, left, rfl⟩
    · exact (shares pair listed).2
    · exact (mem_remaining.mp left).1
  covered name declared := by
    by_cases left : name ∈ rule.remaining C
    · exact ⟨_, mem_downBuilder.mpr (.inr ⟨name, left, rfl⟩), rfl⟩
    · rw [mem_remaining] at left
      push Not at left
      obtain ⟨pair, listed, rfl⟩ := left declared
      exact ⟨_, mem_downBuilder.mpr (.inl ⟨pair, listed, rfl⟩), rfl⟩

private theorem upBuilder_draws (plain : Builder.dataKey ∉ P) : (rule.upBuilder parent).Draws where
  kinds s member := by
    obtain ⟨_, _, rfl⟩ := mem_upBuilder.mp member
    exact .inl rfl
  apart := by
    have targets : (rule.upBuilder parent).sources.map IdentifierSource.target =
        Keyed.keys (Plan.sharedIdentifiers rule) := by
      simp [upBuilder, Plan.targets_of_identifierSources, Keyed.keys, Function.comp_def]
    rw [targets]
    exact Keyed.nodup_keys_merge (m := []) List.nodup_nil _
  plain s member := by
    obtain ⟨pair, listed, rfl⟩ := mem_upBuilder.mp member
    rintro same
    exact plain (same ▸ (shares pair listed).1)
  bare := rfl

private theorem upBuilder_covers (pairs : rule.Pairs P C) : (rule.upBuilder parent).Covers P where
  known s member := by
    obtain ⟨pair, listed, rfl⟩ := mem_upBuilder.mp member
    exact (shares pair listed).1
  covered name declared := by
    obtain ⟨pair, listed, rfl⟩ := List.mem_map.mp (pairs.covers name declared)
    exact ⟨_, mem_upBuilder.mpr ⟨pair, listed, rfl⟩, rfl⟩

end SubResourcesRule

/-! ## Down and up, up and down -/

/-- Using the reference of a resource under one name, and that of what it gives under another, comes
to a resource with the same identifiers and client, of the same type. On the way is one of the other
type. Nothing is called. -/
def Graph.Returns (g : Graph) (id : ResourceId) (r : Resource) (between : TypeRef) (first : String)
    (argument : Option Datum) (second : String) (back : Option Datum) : Prop :=
  ∃ x s mid y t h, runIn (Act.refer id first argument) g = (.ok (.one x), mid) ∧
    mid.resources[x]? = some s ∧ s.type = between ∧ g.Quiet mid ∧
      runIn (Act.refer x second back) mid = (.ok (.one y), h) ∧
        h.resources[y]? = some t ∧ t.type = r.type ∧ t.identifiers = r.identifiers ∧
          t.client = r.client ∧
          mid.Quiet h

section Laws

variable {m : Model} {rule : SubResourcesRule} {parent child : TypeRef} {P C : ResourceType} {g : Graph}
  {id : ResourceId} {r : Resource}

/-- A resource of a type has the identifiers of the type, and none of them is null. -/
theorem Graph.Faithful.identifiers {T : ResourceType} (faithful : g.Faithful m)
    (there : g.resources[id]? = some r) (typed : g.types[r.type.index]? = some T) :
    Keyed.keys r.identifiers = T.identifiers ∧
      ∀ name ∈ T.identifiers, ∃ v, v ≠ .null ∧ Keyed.get? r.identifiers name = some v := by
  obtain ⟨given, identified⟩ := faithful.made id r there
  rw [typed, Option.getD_some] at identified
  have keys := Act.keys_of_identify identified
  refine ⟨keys, fun name declared => ?_⟩
  obtain ⟨v, found⟩ := Keyed.get?_of_mem_keys (keys ▸ declared : name ∈ Keyed.keys r.identifiers)
  exact ⟨v, ResourceType.filled_of_identify identified _ (Keyed.mem_of_get? found), found⟩

theorem Model.type_of_faithful (faithful : g.Faithful m) {ref : TypeRef} {T : ResourceType}
    (there : m.types[ref.index]? = some (ref.name, T)) : g.types[ref.index]? = some T := by
  rw [faithful.types]
  exact Owns.found (.inr there)

theorem Model.usable_of_wellFormed (formed : m.WellFormed) {ref : TypeRef} {T : ResourceType}
    (there : m.types[ref.index]? = some (ref.name, T)) (selfless : "self" ∉ T.identifiers) :
    T.identifiers.Nodup ∧ ∀ name ∈ Act.takenNames, name ∉ T.identifiers := by
  have names := (formed.types _ (List.mem_of_getElem? there)).names
  refine ⟨names.identifiers, fun name taken declared => ?_⟩
  simp only [Act.takenNames, ResourceType.unusableNames, List.mem_cons, List.not_mem_nil,
    or_false] at taken
  rcases taken with rfl | rfl | rfl | rfl
  · exact names.unreserved _ declared (by simp [reservedNames])
  · exact selfless declared
  · exact names.unreserved _ declared (by simp [reservedNames])
  · exact names.unreserved _ declared (by simp [reservedNames])

variable (formed : m.WellFormed) (relates : m.Relates rule parent child P C)
  (pairs : rule.Pairs P.identifiers C.identifiers) (faithful : g.Faithful m)

include formed relates pairs faithful

/-- The reference of a parent down to a child. -/
theorem refer_down (there : g.resources[id]? = some r) (typed : r.type = parent)
    {argument : Option Datum} (takes : rule.Takes C.identifiers argument) :
    ∃ x s h, Act.Draws g id (SubResourcesRule.downName parent.name child.name) argument
      (rule.downBuilder child C.identifiers) r x s h := by
  obtain ⟨o, has, work⟩ := relates.down
  obtain ⟨distinct, usable⟩ := Model.usable_of_wellFormed formed relates.below pairs.selfless.2
  have owner : g.types[r.type.index]? = some P := typed ▸ Model.type_of_faithful faithful relates.above
  obtain ⟨_, filled⟩ := faithful.identifiers there owner
  have plain : Builder.dataKey ∉ C.identifiers :=
    usable _ (by simp [Act.takenNames, ResourceType.unusableNames, Builder.dataKey])
  refine Act.refer_draws faithful there ⟨r, P, there, owner, has⟩ work
    (SubResourcesRule.downBuilder_draws relates.shares pairs distinct plain)
    (Model.type_of_faithful faithful relates.below)
    (SubResourcesRule.downBuilder_covers relates.shares) usable ?_ ?_
  · rw [SubResourcesRule.downBuilder_requires]
    cases argument with
    | none => simp [show rule.remaining C.identifiers = [] from takes]
    | some v => simp [takes.1]
  · intro s member
    rcases SubResourcesRule.mem_downBuilder.mp member with ⟨pair, listed, rfl⟩ | ⟨name, left, rfl⟩
    · exact filled _ (relates.shares pair listed).1
    · cases argument with
      | none =>
        rw [show rule.remaining C.identifiers = [] from takes] at left
        cases left
      | some v => exact ⟨v, takes.2, if_neg takes.2⟩

/-- The reference of a child up to its parent. -/
theorem refer_up (there : g.resources[id]? = some r) (typed : r.type = child) :
    ∃ x s h, Act.Draws g id (SubResourcesRule.upName parent.name) none (rule.upBuilder parent)
      r x s h := by
  obtain ⟨o, has, work⟩ := relates.up pairs
  obtain ⟨distinct, usable⟩ := Model.usable_of_wellFormed formed relates.above pairs.selfless.1
  have owner : g.types[r.type.index]? = some C := typed ▸ Model.type_of_faithful faithful relates.below
  obtain ⟨_, filled⟩ := faithful.identifiers there owner
  have plain : Builder.dataKey ∉ P.identifiers :=
    usable _ (by simp [Act.takenNames, ResourceType.unusableNames, Builder.dataKey])
  refine Act.refer_draws faithful there ⟨r, C, there, owner, has⟩ work
    (SubResourcesRule.upBuilder_draws relates.shares plain)
    (Model.type_of_faithful faithful relates.above)
    (SubResourcesRule.upBuilder_covers relates.shares pairs) usable
      SubResourcesRule.upBuilder_requires ?_
  intro s member
  obtain ⟨pair, listed, rfl⟩ := SubResourcesRule.mem_upBuilder.mp member
  exact filled _ (relates.shares pair listed).2

/-- From a parent down to a child and up again. -/
theorem returns_down_up (there : g.resources[id]? = some r) (typed : r.type = parent)
    {argument : Option Datum} (takes : rule.Takes C.identifiers argument) :
    g.Returns id r child (SubResourcesRule.downName parent.name child.name) argument
      (SubResourcesRule.upName parent.name) none := by
  obtain ⟨x, s, mid, down⟩ := refer_down formed relates pairs faithful there typed takes
  have after := faithful.refers down.refers
  obtain ⟨y, t, h, up⟩ := refer_up formed relates pairs after down.there down.mirrors.type
  have last := after.refers up.refers
  have owner : g.types[r.type.index]? = some P := typed ▸ Model.type_of_faithful faithful relates.above
  have again : h.types[t.type.index]? = some P :=
    up.mirrors.type ▸ Model.type_of_faithful last relates.above
  obtain ⟨keys, _⟩ := faithful.identifiers there owner
  obtain ⟨keys', _⟩ := last.identifiers up.there again
  have distinct := (Model.usable_of_wellFormed formed relates.above pairs.selfless.1).1
  refine ⟨x, s, mid, y, t, h, down.ran, down.there, down.mirrors.type, down.quiet, up.ran, up.there,
    up.mirrors.type.trans typed.symm, ?_, up.mirrors.client.trans down.mirrors.client, up.quiet⟩
  refine Keyed.eq_of_get? (keys'.trans keys.symm) (keys' ▸ distinct) fun name declared => ?_
  -- The value went down under the name that the child has for it, and came up from there.
  obtain ⟨pair, listed, rfl⟩ := List.mem_map.mp (pairs.covers name (keys' ▸ declared))
  obtain ⟨v, drawn, has⟩ := down.mirrors.drawn _
    (SubResourcesRule.mem_downBuilder.mpr (.inl ⟨pair, listed, rfl⟩))
  obtain ⟨w, drawn', has'⟩ := up.mirrors.drawn _ (SubResourcesRule.mem_upBuilder.mpr ⟨pair, listed, rfl⟩)
  cases has.symm.trans drawn'
  exact has'.trans drawn.symm

/-- From a child up to its parent and down again, with what the parent does not know. -/
theorem returns_up_down (there : g.resources[id]? = some r) (typed : r.type = child) :
    g.Returns id r parent (SubResourcesRule.upName parent.name) none
      (SubResourcesRule.downName parent.name child.name) (rule.rest C.identifiers r.identifiers) := by
  have owner : g.types[r.type.index]? = some C := typed ▸ Model.type_of_faithful faithful relates.below
  obtain ⟨keys, filled⟩ := faithful.identifiers there owner
  have takes : rule.Takes C.identifiers (rule.rest C.identifiers r.identifiers) := by
    unfold SubResourcesRule.rest
    cases left : rule.remaining C.identifiers with
    | nil => exact left
    | cons name others =>
      have member : name ∈ rule.remaining C.identifiers := left ▸ List.mem_cons_self
      obtain ⟨v, full, found⟩ := filled name (SubResourcesRule.mem_remaining.mp member).1
      rw [List.head?_cons, Option.bind_some, found]
      exact ⟨by simp [left], full⟩
  obtain ⟨y, t, mid, up⟩ := refer_up formed relates pairs faithful there typed
  have after := faithful.refers up.refers
  obtain ⟨x, s, h, down⟩ := refer_down formed relates pairs after up.there up.mirrors.type takes
  have last := after.refers down.refers
  have again : h.types[s.type.index]? = some C :=
    down.mirrors.type ▸ Model.type_of_faithful last relates.below
  obtain ⟨keys', _⟩ := last.identifiers down.there again
  have distinct := (Model.usable_of_wellFormed formed relates.below pairs.selfless.2).1
  refine ⟨y, t, mid, x, s, h, up.ran, up.there, up.mirrors.type, up.quiet, down.ran, down.there,
    down.mirrors.type.trans typed.symm, ?_, down.mirrors.client.trans up.mirrors.client, down.quiet⟩
  refine Keyed.eq_of_get? (keys'.trans keys.symm) (keys' ▸ distinct) fun name declared => ?_
  by_cases shared : ∃ pair ∈ Plan.sharedIdentifiers rule, pair.2 = name
  · obtain ⟨pair, listed, rfl⟩ := shared
    obtain ⟨v, drawn, has⟩ := up.mirrors.drawn _ (SubResourcesRule.mem_upBuilder.mpr ⟨pair, listed, rfl⟩)
    obtain ⟨w, drawn', has'⟩ := down.mirrors.drawn _
      (SubResourcesRule.mem_downBuilder.mpr (.inl ⟨pair, listed, rfl⟩))
    cases has.symm.trans drawn'
    exact has'.trans drawn.symm
  · -- The one identifier that is not shared was given as the argument.
    have left : name ∈ rule.remaining C.identifiers :=
      SubResourcesRule.mem_remaining.mpr
        ⟨keys' ▸ declared, fun pair listed same => shared ⟨pair, listed, same⟩⟩
    have only : rule.remaining C.identifiers = [name] := by
      obtain ⟨first, one⟩ := List.length_eq_one_iff.mp
        (Nat.le_antisymm relates.single (List.length_pos_of_mem left))
      rw [one] at left ⊢
      rw [List.mem_singleton.mp left]
    obtain ⟨v, full, found⟩ := filled name (keys' ▸ declared)
    have given : rule.rest C.identifiers r.identifiers = some v := by
      rw [SubResourcesRule.rest, only, List.head?_cons, Option.bind_some, found]
    obtain ⟨w, drawn, has⟩ :=
      down.mirrors.drawn _ (SubResourcesRule.mem_downBuilder.mpr (.inr ⟨name, left, rfl⟩))
    rw [given] at drawn
    have same : some v = some w := (if_neg full).symm.trans drawn
    exact has.trans (same.symm.trans found.symm)

end Laws

namespace Model

/-- **The references between parents and children undo each other.** Let a rule of a compiled
document cover its parent, with identifiers of the child that are pairwise distinct. Then every
resource of the parent's type comes back to itself from the child that it refers to, whatever the
argument, and every resource of the child's type comes back to itself from its parent, with what the
parent does not know as the argument. Nothing is called. -/
theorem family_of_compile {given : Json} {service : String} {factory : Option Nat} {m : Model}
    (compiled : compile given service factory = .ok m) :
    ∃ d, Document.read given = .accepted d ∧ ∀ place parent rules rule child,
      d.resources[place]? = some (parent, rules) → rules.subResources = some rule →
        child ∈ rule.resources →
        ∃ index P C, Keyed.indexOf? d.resources child = some index ∧ m.types[place]? = some (parent, P) ∧
          m.types[index]? = some (child, C) ∧ (rule.Pairs P.identifiers C.identifiers →
            ∀ c g resources enumerations, m.Trail c g resources enumerations →
              (∀ id r argument, g.resources[id]? = some r → r.type = ⟨place, parent⟩ →
                rule.Takes C.identifiers argument →
                  g.Returns id r ⟨index, child⟩ (SubResourcesRule.downName parent child) argument
                    (SubResourcesRule.upName parent) none) ∧
              ∀ id r, g.resources[id]? = some r → r.type = ⟨index, child⟩ →
                g.Returns id r ⟨place, parent⟩ (SubResourcesRule.upName parent) none
                  (SubResourcesRule.downName parent child) (rule.rest C.identifiers r.identifiers)) := by
  obtain ⟨formed, _⟩ := wellFormed_of_compile compiled
  obtain ⟨d, read, relating⟩ := relates_of_compile compiled
  refine ⟨d, read, fun place parent rules rule child written shares listed => ?_⟩
  obtain ⟨index, P, C, position, relates⟩ := relating place parent rules rule child written shares listed
  refine ⟨index, P, C, position, relates.above, relates.below, fun pairs c g _ _ trail => ?_⟩
  have faithful := faithful_of_trail trail
  refine ⟨fun id r argument there typed takes => ?_, fun id r there typed => ?_⟩
  · have returns := returns_down_up formed relates pairs faithful there typed takes
    exact returns
  · have returns := returns_up_down formed relates pairs faithful there typed
    exact returns

/-- The rule of teams for their members. -/
def teamRule : SubResourcesRule := ⟨["teamMember"], [("name", "teamName")]⟩

/-- The model of teams and their members. -/
def teamsModel : Model where
  name := "club"
  root := { name := "club", isFrozen := true, operations := [
    ("team", ⟨.reference ⟨⟨0, "team"⟩, [.ofArgument "name"], none⟩, {}⟩)] }
  types := [
    ("team", { name := "team", identifiers := ["name"], isFrozen := true, operations := [
      ("member", ⟨.reference (teamRule.downBuilder ⟨1, "teamMember"⟩ ["team_name", "id"]), {}⟩)] }),
    ("teamMember",
      { name := "teamMember", identifiers := ["team_name", "id"], isFrozen := true, operations := [
      ("team", ⟨.reference (teamRule.upBuilder ⟨0, "team"⟩), {}⟩)] })]

private theorem compile_teams : compile teams "club" none = .ok teamsModel := by decide +kernel

private theorem read_teams : ∃ d rules, Document.read teams = .accepted d ∧ d.resources[0]? = some
    ("team", rules) ∧
    rules.subResources = some teamRule := by
  have written : ((Document.read teams).map fun d =>
      (d.resources[0]?).map fun entry => (entry.1, entry.2.subResources)) =
        .accepted (some ("team", some teamRule)) := rfl
  cases read : Document.read teams with
  | accepted d =>
    rw [read] at written
    obtain ⟨⟨name, rules⟩, there, same⟩ := Option.map_eq_some_iff.mp (Checked.accepted.inj written)
    obtain ⟨rfl, shares⟩ := Prod.mk.inj same
    exact ⟨d, rules, rfl, there, shares⟩
  | rejected findings =>
    rw [read] at written
    cases written

/-- From a root to a team, and on to one of its members. -/
def visit : Act (ResourceId × Outcome × Outcome × Resource × Resource) := do
  let root ← Act.root teamsModel (some 0)
  let team ← Act.callNamed 0 "team" [.str "red"] []
  let member ← Act.callNamed 1 "member" [.str "ann"] []
  return (root, team, member, ← Act.resource 1, ← Act.resource 2)

private theorem visit_teams : (runIn visit (Graph.ofModel teamsModel [])).1.toOption =
    some (0, .built (.one 1), .built (.one 2), ⟨⟨0, "team"⟩, [("name", .str "red")], 0, none, []⟩,
      ⟨⟨1, "teamMember"⟩, [("team_name", .str "red"), ("id", .str "ann")], 0, none, []⟩) := by
        decide +kernel

private theorem shared_teamRule : Plan.sharedIdentifiers teamRule = [("name", "team_name")] := by
    decide +kernel

private theorem pairs_teamRule : teamRule.Pairs ["name"] ["team_name", "id"] where
  covers := by simp [shared_teamRule, Keyed.keys]
  apart := by simp [shared_teamRule]
  selfless := by decide

/-- A team comes back to itself from a member, and a member from its team. -/
theorem family_teams : ∃ g team member, compile teams "club" none = .ok teamsModel ∧
    teamsModel.Trail 0 g [2, 1, 0] [] ∧ g.resources[1]? = some team ∧ g.resources[2]? = some member ∧
      g.Returns 1 team ⟨1, "teamMember"⟩ "member" (some (.str "bob")) "team" none ∧
      g.Returns 2 member ⟨0, "team"⟩ "team" none "member" (some (.str "ann")) := by
  have visited := visit_teams
  rcases ran : runIn visit (Graph.ofModel teamsModel []) with ⟨f | steps, g⟩ <;> rw [ran] at visited
  · cases visited
  obtain rfl := Option.some.inj visited
  obtain ⟨root, g₁, rooted, ran⟩ := bind_gives.mp ran
  obtain ⟨team, g₂, toTeam, ran⟩ := bind_gives.mp ran
  obtain ⟨member, g₃, toMember, ran⟩ := bind_gives.mp ran
  obtain ⟨first, g₄, one, ran⟩ := bind_gives.mp ran
  obtain ⟨second, g₅, two, ran⟩ := bind_gives.mp ran
  cases ran
  obtain ⟨there₁, rfl⟩ := Act.resource_gives one
  obtain ⟨there₂, rfl⟩ := Act.resource_gives two
  have trail : teamsModel.Trail 0 g [2, 1, 0] [] :=
    .called (.called (.rooted (.opened []) rooted) (by simp) (by simp [Act.namesType]) toTeam)
      (by simp [Outcome.resources, Built.members]) (by simp [Act.namesType]) toMember
  obtain ⟨d, read, families⟩ := family_of_compile compile_teams
  obtain ⟨_, rules, read', written, shares⟩ := read_teams
  cases read.symm.trans read'
  obtain ⟨index, P, C, _, above, below, returns⟩ :=
    families 0 "team" rules teamRule "teamMember" written shares (by simp [teamRule])
  cases above
  rcases index with _ | _ | index
  · exact absurd below (by simp [teamsModel])
  · cases below
    obtain ⟨down, up⟩ := returns pairs_teamRule 0 g _ _ trail
    have remaining : teamRule.remaining ["team_name", "id"] = ["id"] := by
      simp [SubResourcesRule.remaining, shared_teamRule]
    have names : SubResourcesRule.downName "team" "teamMember" = "member" ∧
        SubResourcesRule.upName "team" = "team" := ⟨by cbv, by cbv⟩
    have rest : teamRule.rest ["team_name", "id"] [("team_name", .str "red"), ("id", .str "ann")] =
        some (.str "ann") := by
      rw [SubResourcesRule.rest, remaining]
      rfl
    have takes : teamRule.Takes ["team_name", "id"] (some (.str "bob")) := ⟨by simp [remaining], by simp⟩
    rw [names.1, names.2] at down up
    refine ⟨g, _, _, compile_teams, trail, there₁, there₂, ?_, ?_⟩
    · exact down 1 _ (some (.str "bob")) there₁ rfl takes
    · have returned := up 2 _ there₂ rfl
      rw [rest] at returned
      exact returned
  · exact absurd below (by simp [teamsModel])

end Model

end ResourceGraph
