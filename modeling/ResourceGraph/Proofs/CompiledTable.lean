import ResourceGraph.Proofs.DocumentScope
import ResourceGraph.Proofs.OperationTable
import ResourceGraph.Proofs.WellFormed

/-!
Compiled models have the operations that their documents prescribe. The plan of a document goes
through types and rules side by side, so each step is traced back to the place of its type in the
document; the references between parents and children reach other types, found at the place that
their name has there.
-/

namespace ResourceGraph

open Naming Outcome

/-! ## The rows of a plan -/

section Places

variable {α β : Type} (f : α → List β) {place : Nat}

private theorem flatMap_zipIdx_beyond {xs : List α} {start : Nat} (beyond : place < start) :
    ((xs.zipIdx start).flatMap fun entry => if entry.2 = place then f entry.1 else []) = [] := by
  refine List.flatMap_eq_nil_iff.mpr fun entry member => ?_
  have reached : start ≤ entry.2 := List.le_snd_of_mem_zipIdx member
  rw [if_neg (by omega)]

/-- Of entries with their places, one contributes where only its own place counts. -/
theorem flatMap_zipIdx_own {xs : List α} {start : Nat} {x : α} (there : xs[place]? = some x) :
    ((xs.zipIdx start).flatMap fun entry => if entry.2 = start + place then f entry.1 else []) =
      f x := by
  induction xs generalizing start place with
  | nil => simp at there
  | cons y rest ih =>
    rw [List.zipIdx_cons, List.flatMap_cons]
    cases place with
    | zero =>
      obtain rfl : y = x := by simpa using there
      rw [Nat.add_zero, if_pos rfl, flatMap_zipIdx_beyond f (by omega), List.append_nil]
    | succ place =>
      have shifted : start + (place + 1) = start + 1 + place := by omega
      rw [List.getElem?_cons_succ] at there
      rw [if_neg (by simp), List.nil_append, shifted]
      exact ih there

end Places

namespace Plan

variable {d : Document} {scope : Scope}

private theorem rowsAt_child (same : Scope.Of d scope) {parent : TypeSignature} {shared : Keyed String}
    {name : String} (place : Nat) (possible : Possible (child scope parent shared name)) :
    rowsAt (.resource place) (child scope parent shared name) =
      d.childRows place parent.ref.name parent.ref.index name := by
  unfold child at possible ⊢
  cases found : scope.lookup parent.owner "subResources" (some name) with
  | error fault =>
    rw [found] at possible
    exact absurd possible not_possible_stop
  | ok target =>
    rw [found] at possible
    have label : name = target.ref.name := Option.some.inj (same.placed.name_of_lookup found)
    obtain ⟨a, attachedDown⟩ := possible _ List.mem_cons_self
    obtain ⟨down, madeDown, _⟩ := map_ok.mp attachedDown
    obtain ⟨_, _, relatedDown⟩ := bind_ok.mp madeDown
    obtain ⟨_, _, relatedDown⟩ := bind_ok.mp relatedDown
    obtain ⟨b, attachedUp⟩ := possible _ (List.mem_cons_of_mem _ List.mem_cons_self)
    obtain ⟨up, relatedUp, _⟩ := map_ok.mp attachedUp
    dsimp only
    rw [← List.singleton_append, rowsAt_append, rowsAt_named madeDown, rowsAt_named relatedUp,
      Row.of_related _ relatedDown, Row.of_related _ relatedUp]
    simp only [Document.childRows, same.index_of_lookup found, TypeSignature.owner,
      Site.resource.injEq, Option.some.injEq, ← label]

/-- Parents and children are types, never the root. -/
theorem site_of_child {parent : TypeSignature} {shared : Keyed String} {name : String} :
    ∀ step ∈ child scope parent shared name, step.site ≠ .root := by
  intro step member
  unfold child at member
  split at member
  · rw [List.mem_singleton.mp member]
    exact nofun
  · rcases List.mem_cons.mp member with rfl | member
    · exact nofun
    · rw [List.mem_singleton.mp member]
      exact nofun

/-- Loads add no rows. -/
theorem rowsAt_loads (site : Site) (sides : List (TypeSignature × ResourceRules)) :
    rowsAt site (sides.flatMap fun side => side.2.load.toList.map (load side.1.owner)) = [] := by
  refine List.filterMap_eq_nil_iff.mpr fun a member => ?_
  obtain ⟨step, listed, here⟩ := List.mem_filterMap.mp member
  obtain ⟨side, _, within⟩ := List.mem_flatMap.mp listed
  obtain ⟨rule, _, rfl⟩ := List.mem_map.mp within
  split at here
  · cases made : Scope.load side.1.owner rule with
    | error fault => simp [load, made, Except.map, Except.toOption] at here
    | ok o =>
      simp only [load, made, Except.map, Except.toOption, Option.some.injEq] at here
      rw [← here]
      rfl
  · cases here

/-- The containers of the types add their rows at their own places. -/
theorem rowsAt_containers (same : Scope.Of d scope) (site : Site)
    (possible : Possible (((scope.map Prod.snd).zip (d.resources.map Prod.snd)).flatMap
      fun (type, rule) => container scope type.owner rule.container)) :
    rowsAt site (((scope.map Prod.snd).zip (d.resources.map Prod.snd)).flatMap
        fun (type, rule) => container scope type.owner rule.container) =
      d.resources.zipIdx.flatMap fun entry =>
        if Site.resource entry.2 = site then entry.1.2.container.rows else [] := by
  rw [← same.flatMap_sides fun ref rules => if Site.resource ref.index = site then
    rules.container.rows else []]
  refine rowsAt_flatMap fun side member => rowsAt_container_site same.placed site ?_
  exact fun step within => possible step (List.mem_flatMap.mpr ⟨side, member, within⟩)

/-- What parents and children attach are the references between them. -/
theorem rowsAt_families (same : Scope.Of d scope) (place : Nat)
    (possible : Possible (((scope.map Prod.snd).zip (d.resources.map Prod.snd)).flatMap
      fun (type, rule) => rule.subResources.toList.flatMap (children scope type))) :
    rowsAt (.resource place) (((scope.map Prod.snd).zip (d.resources.map Prod.snd)).flatMap
        fun (type, rule) => rule.subResources.toList.flatMap (children scope type)) =
      d.familyRows place := by
  rw [Document.familyRows, ← same.flatMap_sides fun ref rules => rules.subResources.toList.flatMap
    fun sub => sub.resources.flatMap (d.childRows place ref.name ref.index)]
  refine rowsAt_flatMap fun side member => rowsAt_flatMap fun sub written =>
    rowsAt_flatMap fun name listed => rowsAt_child same place fun step within => ?_
  exact possible step (List.mem_flatMap.mpr ⟨side, member, List.mem_flatMap.mpr ⟨sub, written,
    List.mem_flatMap.mpr ⟨name, listed, within⟩⟩⟩)

private theorem rowsAt_families_root (sides : List (TypeSignature × ResourceRules)) :
    rowsAt .root (sides.flatMap
      fun (type, rule) => rule.subResources.toList.flatMap (children scope type)) = [] := by
  refine rowsAt_elsewhere fun step member => ?_
  obtain ⟨side, _, families⟩ := List.mem_flatMap.mp member
  obtain ⟨sub, _, siblings⟩ := List.mem_flatMap.mp families
  obtain ⟨name, _, within⟩ := List.mem_flatMap.mp siblings
  exact site_of_child step within

/-- **What a plan attaches to a type is the table that the document prescribes for it.** -/
theorem rowsAt_type {service : String} (same : Scope.Of d scope)
    (possible : Possible (ofDocument d service scope)) {place : Nat} {name : String}
    {rules : ResourceRules} (written : d.resources[place]? = some (name, rules)) :
    rowsAt (.resource place) (ofDocument d service scope) = d.table place rules := by
  have serving : rowsAt (.resource place) (container scope ⟨.root, service, []⟩ d.service) = [] :=
    rowsAt_elsewhere fun step member => by
      rw [site_of_container step member]
      exact nofun
  have own := rowsAt_containers same (.resource place) possible.left.right
  have contained : (d.resources.zipIdx.flatMap fun entry =>
      if Site.resource entry.2 = Site.resource place then entry.1.2.container.rows else []) =
        rules.container.rows := by
    have single : ((d.resources.zipIdx 0).flatMap fun entry =>
        if entry.2 = 0 + place then entry.1.2.container.rows else []) = rules.container.rows :=
      flatMap_zipIdx_own (fun entry : String × ResourceRules => entry.2.container.rows) written
    simpa using single
  unfold ofDocument
  rw [rowsAt_append, rowsAt_append, rowsAt_append, rowsAt_loads, serving, own, contained,
    rowsAt_families same place possible.right, List.nil_append, List.nil_append, Document.table]

/-- What a plan attaches to the root are the rows of the service. -/
theorem rowsAt_root {service : String} (same : Scope.Of d scope)
    (possible : Possible (ofDocument d service scope)) :
    rowsAt .root (ofDocument d service scope) = d.service.rows := by
  have serving : rowsAt .root (container scope ⟨.root, service, []⟩ d.service) = d.service.rows :=
    rowsAt_container same.placed possible.left.left.right
  have own := rowsAt_containers same .root possible.left.right
  have none : (d.resources.zipIdx.flatMap fun entry =>
      if Site.resource entry.2 = Site.root then entry.1.2.container.rows else []) = [] :=
    List.flatMap_eq_nil_iff.mpr fun _ _ => if_neg nofun
  unfold ofDocument
  rw [rowsAt_append, rowsAt_append, rowsAt_append, rowsAt_loads, serving, own, none,
    rowsAt_families_root, List.nil_append, List.append_nil, List.append_nil]

end Plan

/-! ## Compiled models -/

namespace Draft

/-- A type starts with no rows, and has after a plan those that the plan attaches to it. -/
theorem table_of_steps {steps : List Step} {d e : Draft} {site : Site} {t : ResourceType}
    (ran : steps.foldlM Draft.take d = .ok e) (there : d.typeAt? site = some t) (apart : t.NamesApart)
    (bare : t.operations = []) : ∃ u, e.typeAt? site = some u ∧ u.table = Plan.rowsAt site steps := by
  obtain ⟨_, _, final⟩ := of_steps ran
  obtain ⟨u, last, run⟩ := final site t there
  obtain ⟨_, _, _, operations, _⟩ := ResourceType.of_attachments apart run
  refine ⟨u, last, ?_⟩
  rw [ResourceType.table, operations, bare, List.nil_append, List.map_filterMap]
  rfl

/-- Exposing a type adds its row to the root unless it is told apart by several identifiers or its
name is there. -/
theorem table_of_expose {type : TypeSignature} {rules : ResourceRules} {d e : Draft}
    (count : type.identifiers.length = rules.identifiers.length)
    (exposed : d.expose type = .ok e) :
    e.types = d.types ∧ e.root.table = Document.exposing d.root.table (type.ref.name, rules) := by
  have names : d.root.table.map Row.name = Keyed.keys d.root.operations := by
    simp [ResourceType.table, Keyed.keys, Row.of, Function.comp_def]
  unfold expose at exposed
  dsimp only at exposed
  unfold Document.exposing
  rw [names, ← count]
  split at exposed
  · next skipped =>
    rw [pure_ok] at exposed
    subst exposed
    simp only [Bool.or_eq_true, decide_eq_true_eq, Keyed.has_iff] at skipped
    exact ⟨rfl, (if_pos skipped).symm⟩
  · next taken =>
    simp only [Bool.or_eq_true, decide_eq_true_eq, Keyed.has_iff] at taken
    rw [if_neg taken]
    obtain ⟨o, made, exposed⟩ := bind_ok.mp exposed
    obtain ⟨root, added, exposed⟩ := bind_ok.mp exposed
    rw [pure_ok] at exposed
    subst exposed
    obtain ⟨rfl, _⟩ := ResourceType.of_addOperation added
    exact ⟨rfl, by simp [ResourceType.table, Row.of_related _ made]⟩

/-- The root ends with a row for every type that can be exposed when its turn comes. -/
theorem table_of_exposes {types : List TypeSignature} {entries : List (String × ResourceRules)}
    {d e : Draft}
    (same : types.map (fun type => (type.ref.name, type.identifiers.length)) =
      entries.map fun entry => (entry.1, entry.2.identifiers.length))
    (ran : types.foldlM expose d = .ok e) :
    e.types = d.types ∧ e.root.table = entries.foldl Document.exposing d.root.table := by
  induction types generalizing entries d with
  | nil =>
    cases entries with
    | cons entry rest => cases same
    | nil =>
      rw [List.foldlM_nil, pure_ok] at ran
      subst ran
      exact ⟨rfl, rfl⟩
  | cons type others ih =>
    cases entries with
    | nil => cases same
    | cons entry rest =>
      obtain ⟨first, later⟩ := List.cons.inj same
      obtain ⟨name, count⟩ := Prod.mk.inj first
      rw [List.foldlM_cons, bind_ok] at ran
      obtain ⟨next, exposed, ran⟩ := ran
      obtain ⟨types, table⟩ := table_of_expose count exposed
      obtain ⟨restTypes, restTable⟩ := ih later ran
      refine ⟨restTypes.trans types, ?_⟩
      rw [restTable, table, name, List.foldl_cons]

end Draft

namespace Model

variable {d : Document} {service : String} {factory : Option Nat} {bares : Keyed ResourceType}

/-- **A compiled model has the operations that its document prescribes**, in their order and no
others. Each type stands at the place of its rules with the table of that place, and the root has
its own. -/
theorem operations_of_compile {given : Json} {m : Model}
    (compiled : compile given service factory = .ok m) :
    ∃ d, Document.read given = .accepted d ∧ m.root.table = d.rootTable ∧
      Keyed.keys m.types = Keyed.keys d.resources ∧
      ∀ place name rules, d.resources[place]? = some (name, rules) →
        ∃ t, m.types[place]? = some (name, t) ∧ t.table = d.table place rules := by
  obtain ⟨d, read, _, made⟩ := declared_of_compile compiled
  obtain ⟨bares, planned, exposed, c, rfl⟩ := compiled_of_document made
  have same := scope_of_bareTypes c.bare
  have listed : ((scopeOf bares).map Prod.snd).map
      (fun type => (type.ref.name, type.identifiers.length)) =
        d.resources.map fun entry => (entry.1, entry.2.identifiers.length) := by
    have counted := congrArg (List.map fun entry => (entry.1, entry.2.length)) same.signatures
    simpa [Function.comp_def] using counted
  obtain ⟨sameTypes, rootTable⟩ := Draft.table_of_exposes listed c.shown
  obtain ⟨_, sameNames, _⟩ := Draft.of_steps c.ran
  have names : Keyed.keys exposed.types = Keyed.keys d.resources := by
    rw [sameTypes, sameNames, ← same.keys]
    refine List.ext_getElem? fun index => ?_
    rw [Keyed.keys, Keyed.keys, List.getElem?_map, List.getElem?_map, getElem?_scopeOf, Option.map_map]
    rfl
  refine ⟨d, read, ?_, ?_, fun place name rules written => ?_⟩
  · have here : (Draft.mk { name := service, factory } bares).typeAt? .root =
      some { name := service, factory } := rfl
    obtain ⟨u, last, attached⟩ := Draft.table_of_steps c.ran here (names_bareRoot service factory) rfl
    cases last
    have served := attached.trans (Plan.rowsAt_root same c.possible)
    exact rootTable.trans (by rw [served, Document.rootTable])
  · rw [← names]
    simp [Keyed.keys, Function.comp_def]
  · obtain ⟨t, there⟩ := (of_bareTypes c.bare place).2 name rules written
    obtain ⟨_, _, typed⟩ := (of_bareTypes c.bare place).1 _ there
    obtain ⟨_, _, bare, _, apart, _⟩ := ResourceType.of_make typed
    have here : (Draft.mk { name := service, factory } bares).typeAt? (.resource place) = some t := by
      simp [Draft.typeAt?, there]
    obtain ⟨u, last, attached⟩ := Draft.table_of_steps c.ran here apart bare
    obtain ⟨⟨label, v⟩, found, rfl⟩ := Option.map_eq_some_iff.mp last
    have labels : label = name := by
      have atPlace := congrArg (·[place]?) names
      rw [← sameTypes] at found
      simpa [Keyed.keys, found, written] using atPlace
    refine ⟨v.freeze, ?_, attached.trans (Plan.rowsAt_type same c.possible written)⟩
    simp [sameTypes, found, labels]

/-- A document of teams and their members. -/
def teams : Json :=
  .object [("resources", .object [
    ("team", .object [("identifiers", .list [.str "name"]), ("subResources", .object [
      ("resources", .list [.str "teamMember"]), ("identifiers", .object [("name", .str "teamName")])])]),
    ("teamMember", .object [("identifiers", .list [.str "teamName", .str "id"])])])]

set_option maxRecDepth 100000 in
/-- The operations of teams and their members. Only the team can be reached from the root. -/
theorem operations_teams : ∃ m, compile teams "club" none = .ok m ∧
    (∃ d, Document.read teams = .accepted d ∧ m.root.table = d.rootTable ∧
      Keyed.keys m.types = Keyed.keys d.resources ∧
      ∀ place name rules, d.resources[place]? = some (name, rules) →
        ∃ t, m.types[place]? = some (name, t) ∧ t.table = d.table place rules) ∧
    m.root.table = [⟨"team", .reference, some "team"⟩] ∧
    m.types.map (fun entry => entry.2.table) =
      [[⟨"member", .reference, some "teamMember"⟩], [⟨"team", .reference, some "team"⟩]] := by
  have computed : (compile teams "club" none).toOption.map
      (fun m => (m.root.table, m.types.map fun entry => entry.2.table)) =
        some ([⟨"team", .reference, some "team"⟩],
          [[⟨"member", .reference, some "teamMember"⟩], [⟨"team", .reference, some "team"⟩]]) := by cbv
  cases made : compile teams "club" none with
  | error fault => simp [made, Except.toOption] at computed
  | ok m =>
    simp only [made, Except.toOption, Option.map_some, Option.some.injEq, Prod.mk.injEq] at computed
    exact ⟨m, rfl, operations_of_compile made, computed.1, computed.2⟩

end Model

end ResourceGraph
