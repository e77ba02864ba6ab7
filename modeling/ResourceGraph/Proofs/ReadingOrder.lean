import ResourceGraph.Proofs.Declaration
import ResourceGraph.Proofs.PlanOrder

/-!
Reading documents whose entries are in another order. Where the entries of maps of rules and of the
map of resources change places, both documents are accepted or neither is, and what was read differs
in the order of entries only.
-/

namespace ResourceGraph

variable {α β γ : Type}

/-! ## Documents in another order -/

namespace Json

/-- Two maps without a key twice have related entries, in some order; what is no map stays as it is. -/
inductive EntriesMoved (related : Json → Json → Prop) : Json → Json → Prop
  | map {fields fields' : Keyed Json} (distinct : (Keyed.keys fields).Nodup)
      (moved : Shuffled (SameKey related) fields fields') :
      EntriesMoved related (.object fields) (.object fields')
  | other {given : Json} (noMap : ∀ fields, given ≠ .object fields) : EntriesMoved related given given

/-- The fields have the same keys in the same order, and related values. -/
abbrev FieldsLike (related : String → Json → Json → Prop) (fields fields' : Keyed Json) : Prop :=
  List.Forall₂ (fun x y => x.1 = y.1 ∧ related x.1 x.2 y.2) fields fields'

/-- Two objects have the same keys in the same order, and related members; what is no object stays
as it is. -/
inductive MembersLike (related : String → Json → Json → Prop) : Json → Json → Prop
  | object {fields fields' : Keyed Json} (members : FieldsLike related fields fields') :
      MembersLike related (.object fields) (.object fields')
  | other {given : Json} (noObject : ∀ fields, given ≠ .object fields) : MembersLike related given given

/-- The keys under which a container has maps of rules, in both of their forms. -/
def ruleMaps : List String :=
  ["actions", "hasMany", "has_many", "hasSome", "has_some", "hasOne", "has_one"]

/-- A member of a container: a map of rules with its entries in another order, or anything else as
it is. -/
def RuleMapMoved (key : String) (given given' : Json) : Prop :=
  if key ∈ ruleMaps then EntriesMoved Eq given given' else given = given'

/-- A container with the entries of its maps of rules in another order. -/
def ContainerMoved : Json → Json → Prop := MembersLike RuleMapMoved

/-- A member of a document: the service, or the resources in another order. -/
def PartMoved (key : String) (given given' : Json) : Prop :=
  if key = "service" then ContainerMoved given given'
  else if key = "resources" then EntriesMoved ContainerMoved given given'
  else given = given'

/-- A document with its resources, and the entries of maps of rules, in another order. -/
def DocumentMoved : Json → Json → Prop := MembersLike PartMoved

end Json

/-! ## Two checks -/

/-- Both checks accept, and give related values, or neither does. -/
inductive Checked.Both (related : α → β → Prop) : Checked α → Checked β → Prop
  | accepted {a : α} {b : β} (values : related a b) : Both related (.accepted a) (.accepted b)
  | rejected (findings findings' : List Finding) :
      Both related (.rejected findings) (.rejected findings')

namespace Checked.Both

variable {related : α → β → Prop} {c : Checked α} {c' : Checked β}

theorem refl {same : α → α → Prop} (each : ∀ a, same a a) (c : Checked α) : Both same c c := by
  cases c with
  | accepted a => exact .accepted (each a)
  | rejected findings => exact .rejected findings findings

theorem mono {other : α → β → Prop} (both : Both related c c')
    (implies : ∀ a b, c = .accepted a → c' = .accepted b → related a b → other a b) :
    Both other c c' := by
  cases both with
  | accepted values => exact .accepted (implies _ _ rfl rfl values)
  | rejected findings findings' => exact .rejected findings findings'

private theorem comp {next : β → γ → Prop} {c'' : Checked γ} (first : Both related c c')
    (second : Both next c' c'') : Both (fun a c => ∃ b, related a b ∧ next b c) c c'' := by
  cases first with
  | accepted values =>
    cases second with
    | accepted values' => exact .accepted ⟨_, values, values'⟩
  | rejected findings findings' =>
    cases second with
    | rejected _ findings'' => exact .rejected findings findings''

theorem under (both : Both related c c') (segment : String) :
    Both related (c.under segment) (c'.under segment) := by
  cases both with
  | accepted values => exact .accepted values
  | rejected _ _ => exact .rejected _ _

private theorem withFindings (both : Both related c c') (more : List Finding) :
    Both related (c.withFindings more) (c'.withFindings more) := by
  cases both with
  | accepted values =>
    cases more with
    | nil => exact .accepted values
    | cons _ _ => exact .rejected _ _
  | rejected _ _ => exact .rejected _ _

theorem map {δ : Type} {made : γ → δ → Prop} {f : α → γ} {g : β → δ} (both : Both related c c')
    (each : ∀ a b, related a b → made (f a) (g b)) : Both made (f <$> c) (g <$> c') := by
  cases both with
  | accepted values => exact .accepted (each _ _ values)
  | rejected findings findings' => exact .rejected findings findings'

theorem seq {δ : Type} {made : γ → δ → Prop} {f : Checked (α → γ)} {g : Checked (β → δ)}
    (functions : Both (fun f g => ∀ a b, related a b → made (f a) (g b)) f g)
    (both : Both related c c') : Both made (f <*> c) (g <*> c') := by
  cases functions with
  | accepted each =>
    cases both with
    | accepted values => exact .accepted (each _ _ values)
    | rejected _ _ => exact .rejected _ _
  | rejected _ _ =>
    cases both with
    | accepted _ => exact .rejected _ _
    | rejected _ _ => exact .rejected _ _

end Checked.Both

namespace Check

open Checked

/-! ## Maps -/

section Maps

variable {related : Json → Json → Prop} {read : α → β → Prop} {check : Json → Checked α}
  {check' : Json → Checked β}

/-- Entries side by side are read side by side. -/
theorem both_entries {fields fields' : Keyed Json}
    (pairs : List.Forall₂ (SameKey related) fields fields')
    (each : ∀ v v', related v v' → Both read (check v) (check' v')) :
    Both (List.Forall₂ (SameKey read)) (entries check fields) (entries check' fields') := by
  induction pairs with
  | nil => exact .accepted .nil
  | @cons x y _ _ first _ ih =>
    obtain ⟨name, v⟩ := x
    obtain ⟨name', v'⟩ := y
    obtain ⟨rfl, values⟩ := first
    rw [entries, entries]
    refine .seq (.map ((each v v' values).under name) fun a b same rest rest' others => ?_) ih
    exact .cons ⟨rfl, same⟩ others

/-- Entries in another order are read in that order. -/
theorem both_entries_perm {fields fields' : Keyed Json} (order : fields.Perm fields')
    (check : Json → Checked α) : Both List.Perm (entries check fields) (entries check fields') := by
  induction order with
  | nil => exact .accepted .nil
  | cons entry _ ih =>
    obtain ⟨name, v⟩ := entry
    have value : Both Eq (check v) (check v) := .refl (fun _ => rfl) _
    rw [entries, entries]
    refine .seq (.map (value.under name) fun a b same rest rest' others => ?_) ih
    exact same ▸ others.cons _
  | swap first second rest =>
    obtain ⟨name, v⟩ := first
    obtain ⟨name', v'⟩ := second
    simp only [entries]
    cases check v <;> cases check v' <;> cases entries check rest <;>
      first
        | exact .accepted (.swap _ _ _)
        | exact .rejected _ _
  | trans _ _ ih ih' =>
    refine (ih.comp ih').mono fun _ _ _ _ between => ?_
    obtain ⟨_, order, order'⟩ := between
    exact order.trans order'

private theorem keys_of_entries {fields : Keyed Json} {found : Keyed α}
    (accepts : entries check fields = .accepted found) : Keyed.keys found = Keyed.keys fields := by
  induction fields generalizing found with
  | nil =>
    cases accepts
    rfl
  | cons field rest ih =>
    obtain ⟨name, value⟩ := field
    simp only [entries, seq_accepted, map_accepted] at accepts
    obtain ⟨_, others, ⟨first, head, rfl⟩, tail, rfl⟩ := accepts
    exact congrArg (name :: ·) (ih tail)

/-- Maps with their entries in another order are read alike. -/
theorem both_map {given given' : Json} (moved : Json.EntriesMoved related given given')
    (each : ∀ v v', related v v' → Both read (check v) (check' v')) :
    Both (fun m m' => (Keyed.keys m).Nodup ∧ Shuffled (SameKey read) m m') (map check given)
      (map check' given') := by
  cases moved with
  | map distinct moved =>
    obtain ⟨between, order, pairs⟩ := moved
    refine ((both_entries_perm order check).comp (both_entries pairs each)).mono ?_
    intro found found' accepts _ ⟨found'', order', pairs'⟩
    exact ⟨keys_of_entries accepts ▸ distinct, found'', order', pairs'⟩
  | other noMap =>
    unfold map
    split
    · next fields => exact absurd rfl (noMap fields)
    · exact .rejected _ _

end Maps

/-! ## Objects -/

section Objects

variable {related : String → Json → Json → Prop} {fields fields' : Keyed Json}

theorem get?_like (members : Json.FieldsLike related fields fields') (name : String) :
    Option.Rel (related name) (Keyed.get? fields name) (Keyed.get? fields' name) := by
  induction members with
  | nil => exact .none
  | @cons x y _ _ first _ ih =>
    obtain ⟨key, v⟩ := x
    obtain ⟨key', v'⟩ := y
    obtain ⟨same, values⟩ := first
    dsimp only at same values
    subst same
    unfold Keyed.get?
    split
    · next here => exact .some (here ▸ values)
    · exact ih

private theorem keys_like (members : Json.FieldsLike related fields fields') :
    Keyed.keys fields = Keyed.keys fields' := by
  induction members with
  | nil => rfl
  | cons first _ ih => exact congrArg₂ List.cons first.1 ih

/-- Objects with like members have a key in the same form. -/
theorem formIn?_like (members : Json.FieldsLike related fields fields') (k : Key) :
    k.formIn? fields = k.formIn? fields' := by
  have same : ∀ name, Keyed.has fields name = Keyed.has fields' name := fun name => by
    rw [Bool.eq_iff_iff, Keyed.has_iff, Keyed.has_iff, keys_like members]
  rw [Key.formIn?, Key.formIn?, same, same]

/-- The form in which a key is found is one of its own. -/
theorem form_of_formIn? {k : Key} {form : String} (found : k.formIn? fields = some form) :
    form = k.wire ∨ form = k.other := by
  unfold Key.formIn? at found
  split at found
  · exact .inl (Option.some.inj found).symm
  · split at found
    · exact .inr (Option.some.inj found).symm
    · cases found

/-- A key is found in both objects, in one form and with related values, or in neither. -/
theorem find?_like (members : Json.FieldsLike related fields fields') (k : Key) :
    (k.find? fields = none ∧ k.find? fields' = none) ∨
      ∃ form v v', (form = k.wire ∨ form = k.other) ∧ related form v v' ∧
        k.find? fields = some (form, v) ∧ k.find? fields' = some (form, v') := by
  unfold Key.find?
  rw [← formIn?_like members]
  cases found : k.formIn? fields with
  | none => exact .inl ⟨rfl, rfl⟩
  | some form =>
    have values := get?_like members form
    simp only [Option.bind_some]
    generalize Keyed.get? fields form = x at values
    generalize Keyed.get? fields' form = y at values
    cases values with
    | none => exact .inl ⟨rfl, rfl⟩
    | some values => exact .inr ⟨form, _, _, form_of_formIn? found, values, rfl, rfl⟩

variable {read : α → β → Prop} {k : Key}

/-- A member that may be missing is read alike. -/
theorem both_optional (members : Json.FieldsLike related fields fields') {absent : α} {absent' : β}
    {check : Json → Checked α} {check' : Json → Checked β} (missing : read absent absent')
    (each : ∀ form v v', form = k.wire ∨ form = k.other → related form v v' →
      Both read (check v) (check' v')) :
    Both read (optional fields k absent check) (optional fields' k absent' check') := by
  unfold optional
  rcases find?_like members k with ⟨none, none'⟩ | ⟨form, v, v', own, values, found, found'⟩
  · rw [none, none']
    exact .accepted missing
  · rw [found, found']
    exact (each form v v' own values).under form

/-- A member that is the same in both objects is read alike. -/
theorem both_optional_same (members : Json.FieldsLike related fields fields') {absent : α}
    {check : Json → Checked α} (same : ∀ form v v', form = k.wire ∨ form = k.other →
      related form v v' → v = v') :
    Both Eq (optional fields k absent check) (optional fields' k absent check) := by
  refine both_optional members rfl fun form v v' own values => ?_
  rw [same form v v' own values]
  exact .refl (fun _ => rfl) _

/-- A member that must be there is read alike. -/
theorem both_required (members : Json.FieldsLike related fields fields') {check : Json → Checked α}
    {check' : Json → Checked β}
    (each : ∀ form v v', form = k.wire ∨ form = k.other → related form v v' →
      Both read (check v) (check' v')) :
    Both read (required fields k check) (required fields' k check') := by
  unfold required
  rcases find?_like members k with ⟨none, none'⟩ | ⟨form, v, v', own, values, found, found'⟩
  · rw [none, none']
    exact .rejected _ _
  · rw [found, found']
    exact (each form v v' own values).under form

/-- Objects with like members are read alike if their members are. -/
theorem both_object (members : Json.FieldsLike related fields fields') (name : String) (keys : List Key)
    {check : Keyed Json → Checked α} {check' : Keyed Json → Checked β}
    (both : Both read (check fields) (check' fields')) :
    Both read (model name keys check (.object fields)) (model name keys check' (.object fields')) := by
  have unknown : unknownKeys keys fields = unknownKeys keys fields' := by
    simp only [unknownKeys, keys_like members, formIn?_like members]
  unfold model
  dsimp only
  rw [unknown]
  exact both.withFindings _

/-- Objects with like members are read alike. -/
theorem both_model {given given' : Json} (like : Json.MembersLike related given given') (name : String)
    (keys : List Key) {check : Keyed Json → Checked α} {check' : Keyed Json → Checked β}
    (each : ∀ fields fields', Json.FieldsLike related fields fields' →
      Both read (check fields) (check' fields')) :
    Both read (model name keys check given) (model name keys check' given') := by
  cases like with
  | object members => exact both_object members name keys (each _ _ members)
  | other noObject =>
    unfold model
    split
    · next fields => exact absurd rfl (noObject fields)
    · exact .rejected _ _

end Objects

/-! ## Rules -/

private theorem perm_of_shuffled {m m' : Keyed α} (shuffled : Shuffled (SameKey Eq) m m') :
    m.Perm m' := by
  have entries := shuffled.map (f := id) (g := id) fun x y ⟨names, values⟩ => Prod.ext names values
  simpa using entries

/-- Maps of rules with their entries in another order are read to the same entries. -/
theorem both_rules {fields fields' : Keyed Json} (check : Json → Checked α) {k : Key}
    (members : Json.FieldsLike Json.RuleMapMoved fields fields')
    (own : k.wire ∈ Json.ruleMaps ∧ k.other ∈ Json.ruleMaps) :
    Both List.Perm (optional fields k [] (map check)) (optional fields' k [] (map check)) := by
  refine both_optional members (.refl _) fun form v v' found moved => ?_
  have listed : form ∈ Json.ruleMaps := by
    rcases found with rfl | rfl
    · exact own.1
    · exact own.2
  rw [Json.RuleMapMoved, if_pos listed] at moved
  have read : Both (fun m m' => (Keyed.keys m).Nodup ∧ Shuffled (SameKey Eq) m m') (map check v)
      (map check v') := both_map moved fun v v' same => same ▸ .refl (fun _ => rfl) _
  exact read.mono fun _ _ _ _ ⟨_, shuffled⟩ => perm_of_shuffled shuffled

private theorem both_containerRules {fields fields' : Keyed Json}
    (members : Json.FieldsLike Json.RuleMapMoved fields fields') :
    Both ContainerRules.Shuffles (containerRules fields) (containerRules fields') := by
  have actions := both_rules action members (k := key "actions") (by decide)
  have many := both_rules hasMany members (k := ⟨"hasMany", "has_many"⟩) (by decide)
  have somes := both_rules association members (k := ⟨"hasSome", "has_some"⟩) (by decide)
  have ones := both_rules association members (k := ⟨"hasOne", "has_one"⟩) (by decide)
  refine .seq (.seq (.seq (.map actions ?_) many) somes) ones
  exact fun _ _ acts _ _ manys _ _ some _ _ one => ⟨acts, manys, some, one⟩

/-- A member that is no map of rules is the same in both containers. -/
theorem both_unmoved {fields fields' : Keyed Json} {absent : α} {check : Json → Checked α} {k : Key}
    (members : Json.FieldsLike Json.RuleMapMoved fields fields')
    (other : k.wire ∉ Json.ruleMaps ∧ k.other ∉ Json.ruleMaps) :
    Both Eq (optional fields k absent check) (optional fields' k absent check) := by
  refine both_optional_same members fun form v v' found moved => ?_
  have unlisted : form ∉ Json.ruleMaps := by
    rcases found with rfl | rfl
    · exact other.1
    · exact other.2
  rwa [Json.RuleMapMoved, if_neg unlisted] at moved

private theorem both_resource {given given' : Json} (moved : Json.ContainerMoved given given') :
    Both ResourceRules.Shuffles (resource given) (resource given') := by
  refine both_model moved _ _ fun fields fields' members => ?_
  have container := both_containerRules members
  have names : Both Eq (optional fields (key "identifiers") [] identifiers) _ :=
    both_unmoved members (by decide)
  have shape : Both Eq (optional fields (key "shape") none (nullable string)) _ :=
    both_unmoved members (by decide)
  have loads : Both Eq (optional fields (key "load") none (nullable load)) _ :=
    both_unmoved members (by decide)
  have children :
      Both Eq (optional fields ⟨"subResources", "sub_resources"⟩ none (nullable subResources)) _ :=
    both_unmoved members (by decide)
  refine .seq (.seq (.seq (.seq (.map container ?_) names) shape) loads) children
  exact fun _ _ rules _ _ named _ _ shaped _ _ loaded _ _ parents =>
    ⟨rules, named, shaped, loaded, parents⟩

/-- **Documents with their entries in another order are read alike**: both fit the schema or neither
does. -/
theorem both_document {given given' : Json} (moved : Json.DocumentMoved given given') :
    Both (fun d d' => d.Shuffles d' ∧ (Keyed.keys d.resources).Nodup) (document given)
      (document given') := by
  refine both_model moved _ _ fun fields fields' members => ?_
  have service : Both ContainerRules.Shuffles (optional fields (key "service") {} container)
      (optional fields' (key "service") {} container) := by
    refine both_optional members ⟨.refl _, .refl _, .refl _, .refl _⟩ fun form v v' found part => ?_
    obtain rfl : form = "service" := found.elim id id
    exact both_model part _ _ fun _ _ => both_containerRules
  have resources :
      Both (fun m m' => (Keyed.keys m).Nodup ∧ Shuffled (SameKey ResourceRules.Shuffles) m m')
      (optional fields (key "resources") [] (map resource))
      (optional fields' (key "resources") [] (map resource)) := by
    refine both_optional members ⟨List.nodup_nil, [], .refl _, .nil⟩ fun form v v' found part => ?_
    obtain rfl : form = "resources" := found.elim id id
    exact both_map part fun _ _ => both_resource
  refine .seq (.map service ?_) resources
  exact fun _ _ served _ _ ⟨distinct, shuffled⟩ => ⟨⟨served, shuffled⟩, distinct⟩

end Check

end ResourceGraph
