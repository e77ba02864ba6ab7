import ResourceGraph.Proofs.PlanSpelling
import ResourceGraph.Proofs.ReadingOrder

/-!
Reading documents in another spelling. Where the names that callers see are spelt in another way,
both documents are accepted or neither is, and what was read differs in the spelling of such names
only.
-/

namespace ResourceGraph

variable {α β : Type}

/-! ## Documents in another spelling -/

namespace Json

/-- A name may be spelt in another way; what is no text stays as it is. -/
inductive NameRespelt : Json → Json → Prop
  | name {s t : String} (respelt : Respelt s t) : NameRespelt (.str s) (.str t)
  | same (given : Json) : NameRespelt given given

/-- Two lists have related elements in the same places; what is no list stays as it is. -/
inductive ItemsLike (related : Json → Json → Prop) : Json → Json → Prop
  | list {items items' : List Json} (pairs : List.Forall₂ related items items') :
      ItemsLike related (.list items) (.list items')
  | other {given : Json} (noList : ∀ items, given ≠ .list items) : ItemsLike related given given

/-- Two maps have related entries in the same order, whose keys may be spelt in another way; what is
no map stays as it is. -/
inductive EntriesRespelt (related : Json → Json → Prop) : Json → Json → Prop
  | map {fields fields' : Keyed Json} (pairs : List.Forall₂ (RespeltKey related) fields fields') :
      EntriesRespelt related (.object fields) (.object fields')
  | other {given : Json} (noMap : ∀ fields, given ≠ .object fields) : EntriesRespelt related given given

/-- The key of the kind of a source. -/
def kindKey : Check.Key := ⟨"sourceType", "source_type"⟩

/-- The members under some keys may be spelt in another way. -/
def NamesRespelt (names : List String) (key : String) (given given' : Json) : Prop :=
  if key ∈ names then NameRespelt given given' else given = given'

/-- An object with a source: the members under some keys may be spelt in another way, and the source
itself where it is the name of an identifier. -/
inductive BindingRespelt (names : List String) : Json → Json → Prop
  | identifier {fields fields' : Keyed Json} {form : String}
      (kind : kindKey.find? fields = some (form, .str "identifier"))
      (members : FieldsLike (NamesRespelt ("source" :: names)) fields fields') :
      BindingRespelt names (.object fields) (.object fields')
  | other {given given' : Json} (like : MembersLike (NamesRespelt names) given given') :
      BindingRespelt names given given'

/-- A member of a request. The target of a projection is no name that callers see. -/
def RequestPartRespelt (key : String) (given given' : Json) : Prop :=
  if key = "operation" then NameRespelt given given'
  else if key = "params" then ItemsLike (BindingRespelt []) given given'
  else given = given'

/-- A member of a rule that says how resources are built. -/
def BuildPartRespelt (key : String) (given given' : Json) : Prop :=
  if key = "identifiers" then ItemsLike (BindingRespelt ["target"]) given given' else given = given'

/-- A member of a rule with a request or resources, or with both. -/
def RulePartRespelt (key : String) (given given' : Json) : Prop :=
  if key = "request" then MembersLike RequestPartRespelt given given'
  else if key = "resource" then MembersLike BuildPartRespelt given given'
  else given = given'

/-- A rule with a request or resources, or with both. -/
abbrev RuleRespelt : Json → Json → Prop := MembersLike RulePartRespelt

/-- A member of a plural association. -/
def HasManyPartRespelt (key : String) (given given' : Json) : Prop :=
  if key ∈ ["enumerate", "create"] then RuleRespelt given given'
  else if key = "resource" then MembersLike BuildPartRespelt given given'
  else given = given'

/-- A member of a rule about child types: the identifiers that they share with their parent. -/
def SubResourcesPartRespelt (key : String) (given given' : Json) : Prop :=
  if key = "identifiers" then EntriesRespelt NameRespelt given given' else given = given'

/-- An identifier is a name, or an object with a name. -/
def IdentifierRespelt (given given' : Json) : Prop :=
  NameRespelt given given' ∨ MembersLike (NamesRespelt ["name"]) given given'

/-- A member of the rules of a resource or of the service. -/
def ContainerPartRespelt (key : String) (given given' : Json) : Prop :=
  if key ∈ ["actions", "hasSome", "has_some", "hasOne", "has_one"] then
    EntriesRespelt RuleRespelt given given'
  else if key ∈ ["hasMany", "has_many"] then EntriesRespelt (MembersLike HasManyPartRespelt) given given'
  else if key = "identifiers" then ItemsLike IdentifierRespelt given given'
  else if key = "load" then RuleRespelt given given'
  else if key ∈ ["subResources", "sub_resources"] then MembersLike SubResourcesPartRespelt given given'
  else given = given'

/-- The rules of a resource or of the service. -/
abbrev ContainerRespelt : Json → Json → Prop := MembersLike ContainerPartRespelt

/-- A member of a document. Names of types are not spelt in another way. -/
def PartRespelt (key : String) (given given' : Json) : Prop :=
  if key = "service" then ContainerRespelt given given'
  else if key = "resources" then MembersLike (fun _ => ContainerRespelt) given given'
  else given = given'

/-- A document in another spelling of the names that callers see. -/
def DocumentRespelt : Json → Json → Prop := MembersLike PartRespelt

/-! Whatever is respelt may as well be left as it is. -/

theorem MembersLike.refl {related : String → Json → Json → Prop} (each : ∀ key v, related key v v)
    (given : Json) : MembersLike related given given := by
  cases given with
  | object fields => exact .object (List.forall₂_same.mpr fun entry _ => ⟨rfl, each entry.1 entry.2⟩)
  | _ => exact .other nofun

theorem ItemsLike.refl {related : Json → Json → Prop} (each : ∀ v, related v v) (given : Json) :
    ItemsLike related given given := by
  cases given with
  | list items => exact .list (List.forall₂_same.mpr fun v _ => each v)
  | _ => exact .other nofun

theorem NamesRespelt.refl (names : List String) (key : String) (given : Json) :
    NamesRespelt names key given given := by
  unfold NamesRespelt
  split
  · exact .same given
  · rfl

theorem BindingRespelt.refl (names : List String) (given : Json) : BindingRespelt names given given :=
  .other (.refl (NamesRespelt.refl names) given)

theorem RequestPartRespelt.refl (key : String) (given : Json) : RequestPartRespelt key given given := by
  unfold RequestPartRespelt
  split
  · exact .same given
  · split
    · exact .refl (BindingRespelt.refl []) given
    · rfl

theorem BuildPartRespelt.refl (key : String) (given : Json) : BuildPartRespelt key given given := by
  unfold BuildPartRespelt
  split
  · exact .refl (BindingRespelt.refl ["target"]) given
  · rfl

theorem RuleRespelt.refl (given : Json) : RuleRespelt given given := by
  refine MembersLike.refl (fun key v => ?_) given
  unfold RulePartRespelt
  split
  · exact .refl RequestPartRespelt.refl v
  · split
    · exact .refl BuildPartRespelt.refl v
    · rfl

end Json

namespace Check

open Checked

/-! ## Parts -/

section Parts

variable {related : Json → Json → Prop} {read : α → β → Prop} {check : Json → Checked α}
  {check' : Json → Checked β} {given given' : Json}

theorem both_same (check : Json → Checked α) (given : Json) : Both Eq (check given) (check given) :=
  .refl (fun _ => rfl) _

private theorem respelt_refl (name : String) : Respelt name name := rfl

theorem both_string (respelt : Json.NameRespelt given given') :
    Both Respelt (string given) (string given') := by
  cases respelt with
  | name respelt => exact .accepted respelt
  | same given => exact .refl respelt_refl _

private theorem both_itemsFrom {items items' : List Json} (pairs : List.Forall₂ related items items')
    (each : ∀ v v', related v v' → Both read (check v) (check' v')) (place : Nat) :
    Both (List.Forall₂ read) (itemsFrom check place items) (itemsFrom check' place items') := by
  induction pairs generalizing place with
  | nil => exact .accepted .nil
  | cons first _ ih =>
    rw [itemsFrom, itemsFrom]
    exact .seq (.map ((each _ _ first).under _) fun _ _ same _ _ others => .cons same others) (ih _)

private theorem both_list (like : Json.ItemsLike related given given')
    (each : ∀ v v', related v v' → Both read (check v) (check' v')) :
    Both (List.Forall₂ read) (list check given) (list check' given') := by
  cases like with
  | list pairs => exact both_itemsFrom pairs each 0
  | other noList =>
    unfold list
    split
    · next items => exact absurd rfl (noList items)
    · exact .rejected _ _

private theorem both_under {c : Checked α} {c' : Checked β} (both : Both read c c')
    (name name' : String) :
    Both read (c.under name) (c'.under name') := by
  cases both with
  | accepted values => exact .accepted values
  | rejected _ _ => exact .rejected _ _

private theorem both_entries_respelt {fields fields' : Keyed Json}
    (pairs : List.Forall₂ (RespeltKey related) fields fields')
    (each : ∀ v v', related v v' → Both read (check v) (check' v')) :
    Both (List.Forall₂ (RespeltKey read)) (entries check fields) (entries check' fields') := by
  induction pairs with
  | nil => exact .accepted .nil
  | @cons x y _ _ first _ ih =>
    obtain ⟨name, v⟩ := x
    obtain ⟨name', v'⟩ := y
    rw [entries, entries]
    refine .seq
      (.map (both_under (each v v' first.2) name name') fun a b same rest rest' others => ?_) ih
    exact .cons ⟨first.1, same⟩ others

private theorem both_map_respelt (respelt : Json.EntriesRespelt related given given')
    (each : ∀ v v', related v v' → Both read (check v) (check' v')) :
    Both (List.Forall₂ (RespeltKey read)) (map check given) (map check' given') := by
  cases respelt with
  | map pairs => exact both_entries_respelt pairs each
  | other noMap =>
    unfold map
    split
    · next fields => exact absurd rfl (noMap fields)
    · exact .rejected _ _

theorem both_nullable {part : String → Json → Json → Prop} (like : Json.MembersLike part given given')
    (each : Both read (check given) (check' given')) :
    Both (Option.Rel read) (nullable check given) (nullable check' given') := by
  have some' : Both (Option.Rel read) ((check given).map some) ((check' given').map some) :=
    each.map fun _ _ values => .some values
  cases like with
  | object members => exact some'
  | other noObject =>
    unfold nullable
    split
    · exact .accepted .none
    · exact some'

end Parts

/-! ## Projections and sources -/

section Bindings

variable {fields fields' : Keyed Json} {names : List String}

/-- A member that may not be respelt is read the same. -/
theorem both_kept {k : Key} {check : Json → Checked α}
    (members : Json.FieldsLike (Json.NamesRespelt names) fields fields')
    (kept : k.wire ∉ names ∧ k.other ∉ names) :
    Both Eq (required fields k check) (required fields' k check) := by
  refine both_required members fun form v v' own values => ?_
  have unlisted : form ∉ names := by
    rcases own with rfl | rfl
    · exact kept.1
    · exact kept.2
  rw [Json.NamesRespelt, if_neg unlisted] at values
  exact values ▸ both_same check v

/-- A member that may be respelt is read to two spellings. -/
theorem both_named {name : String} (members : Json.FieldsLike (Json.NamesRespelt names) fields fields')
    (listed : name ∈ names) :
    Both Respelt (required fields (key name) string) (required fields' (key name) string) := by
  refine both_required members fun form v v' own values => ?_
  obtain rfl : form = name := own.elim id id
  rw [Json.NamesRespelt, if_pos listed] at values
  exact both_string values

/-- What is read for a name may be spelt in another way. -/
theorem both_paramSource {given given' : Json} (respelt : Json.NameRespelt given given') :
    Both Value.Respells (paramSource given) (paramSource given') := by
  cases respelt with
  | name respelt => exact .accepted ⟨respelt, rfl⟩
  | same given => exact .refl Value.Respells.refl _

/-- In both objects the kind is that of an identifier. -/
theorem both_kind {kinds : List (String × α)} {kind : α} {form : String}
    (members : Json.FieldsLike (Json.NamesRespelt names) fields fields')
    (kept : "sourceType" ∉ names ∧ "source_type" ∉ names)
    (found : Json.kindKey.find? fields = some (form, .str "identifier"))
    (listed : kinds.lookup "identifier" = some kind) :
    required fields Json.kindKey (oneOf kinds) = .accepted kind ∧
      required fields' Json.kindKey (oneOf kinds) = .accepted kind := by
  have found' : Json.kindKey.find? fields' = some (form, .str "identifier") := by
    rcases find?_like members Json.kindKey with ⟨none, _⟩ | ⟨form', v, v', own, values, here, here'⟩
    · cases found.symm.trans none
    · cases found.symm.trans here
      have unlisted : form ∉ names := by
        rcases own with rfl | rfl
        · exact kept.1
        · exact kept.2
      rw [Json.NamesRespelt, if_neg unlisted] at values
      rw [here', ← values]
  have accepts : oneOf kinds (.str "identifier") = .accepted kind := by
    unfold oneOf
    dsimp only
    rw [listed]
  unfold required
  rw [found, found']
  dsimp only
  rw [accepts]
  exact ⟨rfl, rfl⟩

private theorem both_param {given given' : Json} (respelt : Json.BindingRespelt [] given given') :
    Both ParamRule.Respells (param given) (param given') := by
  unfold param
  cases respelt with
  | @identifier fields fields' form kind members =>
    have listed : (ProjectionKind.all.map fun k => (k.name, k)).lookup "identifier" =
        some .identifier := by
      decide
    obtain ⟨one, other⟩ := both_kind members (by simp) kind listed
    have targets : Both Eq (required fields (key "target") string) _ := both_kept members (by simp [key])
    have sources : Both Value.Respells (required fields (key "source") paramSource)
        (required fields' (key "source") paramSource) := by
      refine both_required members fun form v v' own values => ?_
      obtain rfl : form = "source" := own.elim id id
      rw [Json.NamesRespelt, if_pos (List.mem_singleton_self _)] at values
      exact both_paramSource values
    refine both_object members _ _ ?_
    unfold Json.kindKey at one other
    rw [one, other]
    have kinds : Both (fun k k' => k = ProjectionKind.identifier ∧ k' = ProjectionKind.identifier)
      (.accepted .identifier) (.accepted .identifier) := .accepted ⟨rfl, rfl⟩
    refine .seq (.seq (.map targets ?_) kinds) sources
    rintro target _ rfl _ _ ⟨rfl, rfl⟩ source source' respelt
    exact ⟨rfl, rfl, respelt⟩
  | other like =>
    refine both_model like _ _ fun fields fields' members => ?_
    have targets : Both Eq (required fields (key "target") string) _ := both_kept members (by simp)
    have kinds : Both Eq (required fields Json.kindKey
      (oneOf (ProjectionKind.all.map fun k => (k.name, k)))) _ := both_kept members (by simp)
    have sources : Both Eq (required fields (key "source") paramSource) _ := both_kept members (by simp)
    refine .seq (.seq (.map targets ?_) kinds) sources
    rintro target _ rfl kind _ rfl source _ rfl
    refine ⟨rfl, rfl, ?_⟩
    split
    · exact .refl source
    · rfl

private theorem both_source {given given' : Json}
    (respelt : Json.BindingRespelt ["target"] given given') :
    Both SourceRule.Respells (source given) (source given') := by
  unfold source
  cases respelt with
  | @identifier fields fields' form kind members =>
    have listed : (SourceKind.declarable.map fun k => (k.name, k)).lookup "identifier" =
        some .identifier := by
      decide
    obtain ⟨one, other⟩ := both_kind members (by simp) kind listed
    have kinds : Both (fun k k' => k = SourceKind.identifier ∧ k' = SourceKind.identifier)
      (.accepted .identifier) (.accepted .identifier) := .accepted ⟨rfl, rfl⟩
    refine both_object members _ _ ?_
    unfold Json.kindKey at one other
    rw [one, other]
    refine .seq (.seq (.map (both_named members (by simp)) ?_) kinds) (both_named members (by simp))
    rintro target target' targets _ _ ⟨rfl, rfl⟩ source source' sources
    exact ⟨targets, rfl, sources⟩
  | other like =>
    refine both_model like _ _ fun fields fields' members => ?_
    have kinds : Both Eq (required fields Json.kindKey
      (oneOf (SourceKind.declarable.map fun k => (k.name, k)))) _ := both_kept members (by decide)
    have sources : Both Eq (required fields (key "source") string) _ := both_kept members (by decide)
    refine .seq (.seq (.map (both_named members (by simp)) ?_) kinds) sources
    rintro target target' targets kind _ rfl source _ rfl
    refine ⟨targets, rfl, ?_⟩
    split <;> rfl

end Bindings

/-! ## Rules -/

section Rules

variable {part : String → Json → Json → Prop} {read : α → β → Prop} {fields fields' : Keyed Json}
  {given given' : Json} {name : String}

/-- A member with one form of its key that must be there is read alike. -/
theorem both_member (members : Json.FieldsLike part fields fields') {check : Json → Checked α}
    {check' : Json → Checked β} (each : ∀ v v', part name v v' → Both read (check v) (check' v')) :
    Both read (required fields (key name) check) (required fields' (key name) check') := by
  refine both_required members fun form v v' own values => ?_
  obtain rfl : form = name := own.elim id id
  exact each v v' values

/-- A member with one form of its key that may be missing is read alike. -/
theorem both_part (members : Json.FieldsLike part fields fields') {absent : α} {absent' : β}
    {check : Json → Checked α} {check' : Json → Checked β} (missing : read absent absent')
    (each : ∀ v v', part name v v' → Both read (check v) (check' v')) :
    Both read (optional fields (key name) absent check)
      (optional fields' (key name) absent' check') := by
  refine both_optional members missing fun form v v' own values => ?_
  obtain rfl : form = name := own.elim id id
  exact each v v' values

/-- A member that is the same in both objects is read the same. -/
theorem both_member_same (members : Json.FieldsLike part fields fields') {check : Json → Checked α}
    (same : ∀ v v', part name v v' → v = v') :
    Both Eq (required fields (key name) check) (required fields' (key name) check) :=
  both_member members fun v v' values => same v v' values ▸ both_same check v

theorem both_part_same (members : Json.FieldsLike part fields fields') {absent : α}
    {check : Json → Checked α} (same : ∀ v v', part name v v' → v = v') :
    Both Eq (optional fields (key name) absent check) (optional fields' (key name) absent check) :=
  both_part members rfl fun v v' values => same v v' values ▸ both_same check v

theorem both_request (respelt : Json.MembersLike Json.RequestPartRespelt given given') :
    Both RequestRule.Respells (request given) (request given') := by
  refine both_model respelt _ _ fun fields fields' members => ?_
  have operations : Both Respelt (required fields (key "operation") string)
      (required fields' (key "operation") string) :=
    both_member members fun v v' values => both_string (by simpa [Json.RequestPartRespelt] using values)
  have params : Both (List.Forall₂ ParamRule.Respells) (optional fields (key "params") [] (list param))
      (optional fields' (key "params") [] (list param)) :=
    both_part members .nil fun v v' values =>
      both_list (by simpa [Json.RequestPartRespelt] using values) fun _ _ => both_param
  refine .seq (.map operations ?_) params
  exact fun _ _ names _ _ pairs => ⟨names, pairs⟩

theorem both_build (respelt : Json.MembersLike Json.BuildPartRespelt given given') :
    Both BuildRule.Respells (build given) (build given') := by
  refine both_model respelt _ _ fun fields fields' members => ?_
  have types : Both Eq (optional fields (key "type") none (nullable string))
      (optional fields' (key "type") none (nullable string)) :=
    both_part_same members fun v v' values => by simpa [Json.BuildPartRespelt] using values
  have identifiers : Both (List.Forall₂ SourceRule.Respells)
      (optional fields (key "identifiers") [] (list source))
      (optional fields' (key "identifiers") [] (list source)) :=
    both_part members .nil fun v v' values =>
      both_list (by simpa [Json.BuildPartRespelt] using values) fun _ _ => both_source
  have paths : Both Eq (optional fields (key "path") none (nullable string))
      (optional fields' (key "path") none (nullable string)) :=
    both_part_same members fun v v' values => by simpa [Json.BuildPartRespelt] using values
  refine .seq (.seq (.map types ?_) identifiers) paths
  rintro type _ rfl sources sources' pairs path _ rfl
  exact ⟨rfl, pairs, rfl⟩

private theorem both_load (respelt : Json.RuleRespelt given given') :
    Both LoadRule.Respells (load given) (load given') := by
  refine both_model respelt _ _ fun fields fields' members => ?_
  have requests : Both RequestRule.Respells (required fields (key "request") request)
      (required fields' (key "request") request) :=
    both_member members fun v v' values => both_request (by simpa [Json.RulePartRespelt] using values)
  have paths : Both Eq (required fields (key "path") string) (required fields' (key "path") string) :=
    both_member_same members fun v v' values => by simpa [Json.RulePartRespelt] using values
  refine .seq (.map requests ?_) paths
  rintro request request' respells path _ rfl
  exact ⟨respells, rfl⟩

private theorem both_resource_rule (members : Json.FieldsLike Json.RulePartRespelt fields fields') :
    Both BuildRule.Respells (optional fields (key "resource") {} build)
      (optional fields' (key "resource") {} build) :=
  both_part members ⟨rfl, .nil, rfl⟩ fun v v' values =>
    both_build (by simpa [Json.RulePartRespelt] using values)

/-- What is respelt does not decide which parts an action has. -/
theorem both_actionShape {a a' : ActionRule} (respells : a.Respells a') :
    Both ActionRule.Respells (actionShape a) (actionShape a') := by
  obtain ⟨requests, paths, resources⟩ := respells
  obtain ⟨request, path, resource⟩ := a
  obtain ⟨request', path', resource'⟩ := a'
  dsimp only at requests paths resources
  subst paths
  cases resources with
  | none =>
    cases path <;> exact .accepted ⟨requests, rfl, .none⟩
  | @some build build' builds =>
    cases path with
    | some path => exact .rejected _ _
    | none =>
      unfold actionShape
      dsimp only
      rw [builds.type]
      split
      · exact .rejected _ _
      · exact .accepted ⟨requests, rfl, .some builds⟩

private theorem both_andThen {γ δ : Type} {made : γ → δ → Prop} {c : Checked α} {c' : Checked β}
    {f : α → Checked γ} {g : β → Checked δ} (both : Both read c c')
    (each : ∀ a b, read a b → Both made (f a) (g b)) :
    Both made (c.andThen f) (c'.andThen g) := by
  cases both with
  | accepted values => exact each _ _ values
  | rejected _ _ => exact .rejected _ _

private theorem both_action (respelt : Json.RuleRespelt given given') :
    Both ActionRule.Respells (action given) (action given') := by
  refine both_andThen (both_model respelt _ _ fun fields fields' members => ?_) fun _ _ =>
    both_actionShape
  have requests : Both RequestRule.Respells (required fields (key "request") request)
      (required fields' (key "request") request) :=
    both_member members fun v v' values => both_request (by simpa [Json.RulePartRespelt] using values)
  have paths : Both Eq (optional fields (key "path") none (nullable string))
      (optional fields' (key "path") none (nullable string)) :=
    both_part_same members fun v v' values => by simpa [Json.RulePartRespelt] using values
  have resources : Both (Option.Rel BuildRule.Respells)
      (optional fields (key "resource") none (nullable build))
      (optional fields' (key "resource") none (nullable build)) :=
    both_part members .none fun v v' values => by
      have like : Json.MembersLike Json.BuildPartRespelt v v' := by
        simpa [Json.RulePartRespelt] using values
      exact both_nullable like (both_build like)
  refine .seq (.seq (.map requests ?_) paths) resources
  rintro request request' respells path _ rfl resource resource' builds
  exact ⟨respells, rfl, builds⟩

private theorem both_call (respelt : Json.RuleRespelt given given') :
    Both CallRule.Respells (call given) (call given') := by
  refine both_model respelt _ _ fun fields fields' members => ?_
  have requests : Both RequestRule.Respells (required fields (key "request") request)
      (required fields' (key "request") request) :=
    both_member members fun v v' values => both_request (by simpa [Json.RulePartRespelt] using values)
  refine .seq (.map requests ?_) (both_resource_rule members)
  exact fun _ _ respells _ _ builds => ⟨respells, builds⟩

private theorem both_association (respelt : Json.RuleRespelt given given') :
    Both AssociationRule.Respells (association given) (association given') := by
  refine both_model respelt _ _ fun fields fields' members => ?_
  have types : Both Eq (required fields (key "type") string) (required fields' (key "type") string) :=
    both_member_same members fun v v' values => by simpa [Json.RulePartRespelt] using values
  refine .seq (.map types ?_) (both_resource_rule members)
  rintro type _ rfl build build' builds
  exact ⟨rfl, builds⟩

private theorem both_hasMany (respelt : Json.MembersLike Json.HasManyPartRespelt given given') :
    Both HasManyRule.Respells (hasMany given) (hasMany given') := by
  refine both_model respelt _ _ fun fields fields' members => ?_
  have types : Both Eq (required fields (key "type") string) (required fields' (key "type") string) :=
    both_member_same members fun v v' values => by simpa [Json.HasManyPartRespelt] using values
  have calls (name : String) (own : name ∈ ["enumerate", "create"]) :
      Both (Option.Rel CallRule.Respells) (optional fields (key name) none (nullable call))
        (optional fields' (key name) none (nullable call)) :=
    both_part members .none fun v v' values => by
      rw [Json.HasManyPartRespelt, if_pos own] at values
      exact both_nullable values (both_call values)
  have resources : Both (Option.Rel BuildRule.Respells)
      (optional fields (key "resource") none (nullable build))
      (optional fields' (key "resource") none (nullable build)) :=
    both_part members .none fun v v' values => by
      have like : Json.MembersLike Json.BuildPartRespelt v v' := by
        simpa [Json.HasManyPartRespelt] using values
      exact both_nullable like (both_build like)
  refine .seq (.seq (.seq (.map types ?_) (calls "enumerate" (by simp))) (calls "create" (by simp)))
    resources
  rintro type _ rfl enumerate enumerate' lists create create' creates resource resource' builds
  exact ⟨rfl, lists, creates, builds⟩

private theorem both_subResources
    (respelt : Json.MembersLike Json.SubResourcesPartRespelt given given') :
    Both SubResourcesRule.Respells (subResources given) (subResources given') := by
  refine both_model respelt _ _ fun fields fields' members => ?_
  have children : Both Eq (required fields (key "resources") (list string))
      (required fields' (key "resources") (list string)) :=
    both_member_same members fun v v' values => by simpa [Json.SubResourcesPartRespelt] using values
  have shared : Both (List.Forall₂ (RespeltKey Respelt))
      (required fields (key "identifiers") (map string))
      (required fields' (key "identifiers") (map string)) :=
    both_member members fun v v' values =>
      both_map_respelt (by simpa [Json.SubResourcesPartRespelt] using values) fun _ _ => both_string
  refine .seq (.map children ?_) shared
  rintro names _ rfl shared shared' pairs
  exact ⟨rfl, pairs⟩

private theorem both_identifierName (respelt : Json.IdentifierRespelt given given') :
    Both Respelt (string (identifierName given)) (string (identifierName given')) := by
  rcases respelt with name | like
  · cases name with
    | name respelt => exact .accepted respelt
    | same given => exact .refl respelt_refl _
  · cases like with
    | other noObject => exact .refl respelt_refl _
    | @object fields fields' members =>
      have names := get?_like members "name"
      unfold identifierName
      dsimp only
      generalize Keyed.get? fields "name" = x at names
      generalize Keyed.get? fields' "name" = y at names
      cases names with
      | none => exact .rejected _ _
      | some values =>
        rw [Json.NamesRespelt, if_pos (List.mem_singleton_self _)] at values
        exact both_string values

private theorem both_identifiers (respelt : Json.ItemsLike Json.IdentifierRespelt given given') :
    Both (List.Forall₂ Respelt) (identifiers given) (identifiers given') := by
  cases respelt with
  | list pairs =>
    refine both_itemsFrom ?_ (fun v v' (both : Both Respelt (string v) (string v')) => both) 0
    exact List.forall₂_map_left_iff.mpr (List.forall₂_map_right_iff.mpr
      (pairs.imp fun _ _ => both_identifierName))
  | other noList =>
    unfold identifiers
    split
    · next items => exact absurd rfl (noList items)
    · exact .rejected _ _

end Rules

/-! ## Documents -/

section Documents

variable {fields fields' : Keyed Json} {given given' : Json}

private theorem both_container_rules
    (members : Json.FieldsLike Json.ContainerPartRespelt fields fields') :
    Both ContainerRules.Respells (containerRules fields) (containerRules fields') := by
  have actions : Both (List.Forall₂ (RespeltKey ActionRule.Respells))
      (optional fields (key "actions") [] (map action))
      (optional fields' (key "actions") [] (map action)) :=
    both_part members .nil fun v v' values =>
      both_map_respelt (by simpa [Json.ContainerPartRespelt] using values) fun _ _ => both_action
  have many : Both (List.Forall₂ (RespeltKey HasManyRule.Respells))
      (optional fields ⟨"hasMany", "has_many"⟩ [] (map hasMany))
      (optional fields' ⟨"hasMany", "has_many"⟩ [] (map hasMany)) := by
    refine both_optional members .nil fun form v v' own values => both_map_respelt ?_ fun _ _ =>
      both_hasMany
    rcases own with rfl | rfl <;> simpa [Json.ContainerPartRespelt] using values
  have associations (k : Key) (own : ∀ form, form = k.wire ∨ form = k.other →
        form ∈ ["actions", "hasSome", "has_some", "hasOne", "has_one"]) :
      Both (List.Forall₂ (RespeltKey AssociationRule.Respells)) (optional fields k [] (map association))
        (optional fields' k [] (map association)) := by
    refine both_optional members .nil fun form v v' form' values => ?_
    rw [Json.ContainerPartRespelt, if_pos (own form form')] at values
    exact both_map_respelt values fun _ _ => both_association
  refine .seq (.seq (.seq (.map actions ?_) many) (associations ⟨"hasSome", "has_some"⟩ (by simp)))
    (associations ⟨"hasOne", "has_one"⟩ (by simp))
  exact fun _ _ acts _ _ manys _ _ somes _ _ ones => ⟨acts, manys, somes, ones⟩

private theorem both_resource_respelt (respelt : Json.ContainerRespelt given given') :
    Both ResourceRules.Respells (resource given) (resource given') := by
  refine both_model respelt _ _ fun fields fields' members => ?_
  have names : Both (List.Forall₂ Respelt) (optional fields (key "identifiers") [] identifiers)
      (optional fields' (key "identifiers") [] identifiers) :=
    both_part members .nil fun v v' values =>
      both_identifiers (by simpa [Json.ContainerPartRespelt] using values)
  have shapes : Both Eq (optional fields (key "shape") none (nullable string))
      (optional fields' (key "shape") none (nullable string)) :=
    both_part_same members fun v v' values => by simpa [Json.ContainerPartRespelt] using values
  have loads : Both (Option.Rel LoadRule.Respells) (optional fields (key "load") none (nullable load))
      (optional fields' (key "load") none (nullable load)) :=
    both_part members .none fun v v' values => by
      have like : Json.RuleRespelt v v' := by simpa [Json.ContainerPartRespelt] using values
      exact both_nullable like (both_load like)
  have children : Both (Option.Rel SubResourcesRule.Respells)
      (optional fields ⟨"subResources", "sub_resources"⟩ none (nullable subResources))
      (optional fields' ⟨"subResources", "sub_resources"⟩ none (nullable subResources)) := by
    refine both_optional members .none fun form v v' own values => ?_
    have like : Json.MembersLike Json.SubResourcesPartRespelt v v' := by
      rcases own with rfl | rfl <;> simpa [Json.ContainerPartRespelt] using values
    exact both_nullable like (both_subResources like)
  refine .seq (.seq (.seq (.seq (.map (both_container_rules members) ?_) names) shapes) loads) children
  rintro rules rules' respells named named' pairs shape _ rfl load load' loaded shares shares' parents
  exact ⟨respells, pairs, rfl, loaded, parents⟩

/-- The types of a document, under the same names. -/
theorem both_types (like : Json.MembersLike (fun _ => Json.ContainerRespelt) given given') :
    Both (List.Forall₂ (SameKey ResourceRules.Respells)) (map resource given) (map resource given') := by
  cases like with
  | object members => exact both_entries members fun _ _ => both_resource_respelt
  | other noMap =>
    unfold map
    split
    · next fields => exact absurd rfl (noMap fields)
    · exact .rejected _ _

/-- **Documents in another spelling are read alike**: both fit the schema or neither does. -/
theorem both_document_respelt (respelt : Json.DocumentRespelt given given') :
    Both Document.Respells (document given) (document given') := by
  refine both_model respelt _ _ fun fields fields' members => ?_
  have service : Both ContainerRules.Respells (optional fields (key "service") {} container)
      (optional fields' (key "service") {} container) :=
    both_part members ⟨.nil, .nil, .nil, .nil⟩ fun v v' values => by
      have like : Json.ContainerRespelt v v' := by simpa [Json.PartRespelt] using values
      exact both_model like _ _ fun _ _ => both_container_rules
  have resources : Both (List.Forall₂ (SameKey ResourceRules.Respells))
      (optional fields (key "resources") [] (map resource))
      (optional fields' (key "resources") [] (map resource)) :=
    both_part members .nil fun v v' values => both_types (by simpa [Json.PartRespelt] using values)
  refine .seq (.map service ?_) resources
  exact fun _ _ served _ _ pairs => ⟨served, pairs⟩

end Documents

end Check

end ResourceGraph
