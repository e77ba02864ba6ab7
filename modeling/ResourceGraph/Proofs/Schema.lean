import ResourceGraph.Proofs.ReadingOrder

/-!
The form of documents as a table: the kinds of objects that a document is made of, the keys of each,
and what stands under them. Every reader follows the table: what does not fit under a key of an
object is found in the object, and so is every key that the table does not have. The only objects
that are read otherwise are those that stand for identifiers, of which nothing but the name is
looked at.
-/

namespace ResourceGraph

open Checked

/-- The kinds of objects that a document is made of. -/
inductive Part
  | document | container | resource | load | request | param | action | build | source | call | hasMany
  | association | subResources | identifier
  deriving DecidableEq, Repr

/-- What stands at a place of a document. -/
inductive Position
  /-- An object of this kind. -/
  | object (part : Part)
  /-- A list of objects of this kind. -/
  | items (part : Part)
  /-- A map of objects of this kind, by name. -/
  | entries (part : Part)
  | text
  | texts
  /-- A map of names, by name. -/
  | names
  | projectionKind
  | sourceKind
  /-- The source of a projection. -/
  | literal
  /-- Something that is not looked at. -/
  | ignored
  deriving DecidableEq, Repr

namespace Part

open Check (key)

/-- The keys of the rules that a service and a resource have in common. -/
def rules : List (Check.Key × Position) :=
  [(key "actions", .entries .action), (⟨"hasMany", "has_many"⟩, .entries .hasMany),
    (⟨"hasSome", "has_some"⟩, .entries .association), (⟨"hasOne", "has_one"⟩, .entries .association)]

/-- The keys of an object, and what stands under each of them. -/
def members : Part → List (Check.Key × Position)
  | document => [(key "service", .object .container), (key "resources", .entries .resource)]
  | container => rules
  | resource => rules ++ [(key "identifiers", .items .identifier), (key "shape", .text),
      (key "load", .object .load), (⟨"subResources", "sub_resources"⟩, .object .subResources)]
  | load => [(key "request", .object .request), (key "path", .text)]
  | request => [(key "operation", .text), (key "params", .items .param)]
  | param =>
    [(key "target", .text), (⟨"sourceType", "source_type"⟩, .projectionKind),
      (key "source", .literal)]
  | action => [(key "request", .object .request), (key "path", .text), (key "resource", .object .build)]
  | build => [(key "type", .text), (key "identifiers", .items .source), (key "path", .text)]
  | source =>
    [(key "target", .text), (⟨"sourceType", "source_type"⟩, .sourceKind), (key "source", .text)]
  | call => [(key "request", .object .request), (key "resource", .object .build)]
  | hasMany => [(key "type", .text), (key "enumerate", .object .call), (key "create", .object .call),
      (key "resource", .object .build)]
  | association => [(key "type", .text), (key "resource", .object .build)]
  | subResources => [(key "resources", .texts), (key "identifiers", .names)]
  | identifier => [(key "name", .text)]

/-- The keys of an object. -/
def keys (p : Part) : List Check.Key := p.members.map Prod.fst

/-- The name is no form of a key of the object. -/
def Strange (p : Part) (name : String) : Prop := ∀ k ∈ p.keys, name ≠ k.wire ∧ name ≠ k.other

instance (p : Part) (name : String) : Decidable (p.Strange name) := List.decidableBAll _ p.keys

/-- What does not fit in an object that is read as one of this kind. -/
def findings : Part → Json → List Finding
  | document, v => (Check.document v).findings
  | container, v => (Check.container v).findings
  | resource, v => (Check.resource v).findings
  | load, v => (Check.load v).findings
  | request, v => (Check.request v).findings
  | param, v => (Check.param v).findings
  | action, v => (Check.action v).findings
  | build, v => (Check.build v).findings
  | source, v => (Check.source v).findings
  | call, v => (Check.call v).findings
  | hasMany, v => (Check.hasMany v).findings
  | association, v => (Check.association v).findings
  | subResources, v => (Check.subResources v).findings
  | identifier, v => (Check.string (Check.identifierName v)).findings

end Part

/-- The finding, seen from outside. -/
def Finding.below (f : Finding) (segment : String) : Finding :=
  { f with location := segment :: f.location }

namespace Position

/-- What stands under a key of an object, at a place of a list or under a name of a map. -/
def step : Position → String → Position
  | object p, segment =>
    ((p.members.find? fun m => m.1.wire == segment || m.1.other == segment).map Prod.snd).getD ignored
  | items p, _ => object p
  | entries p, _ => object p
  | _, _ => ignored

/-- What stands at the end of a location. -/
def along (pos : Position) (location : List String) : Position := location.foldl step pos

/-- An object stands there: one of the table, or a map. -/
def HoldsObject : Position → Prop
  | object _ | entries _ | names => True
  | _ => False

/-- What does not fit at a place. -/
def findings : Position → Json → List Finding
  | object p, v => p.findings v
  | items p, .list all => all.zipIdx.flatMap fun (v, place) =>
    (p.findings v).map (·.below (toString place))
  | items _, _ => [⟨[], .notAList⟩]
  | entries p, .object fields => fields.flatMap fun (name, v) => (p.findings v).map (·.below name)
  | entries _, _ => [⟨[], .notAMap⟩]
  | text, v => (Check.string v).findings
  | texts, v => (Check.list Check.string v).findings
  | names, v => (Check.map Check.string v).findings
  | projectionKind, v => (Check.oneOf (ProjectionKind.all.map fun k => (k.name, k)) v).findings
  | sourceKind, v => (Check.oneOf (SourceKind.declarable.map fun k => (k.name, k)) v).findings
  | literal, v => (Check.paramSource v).findings
  | ignored, _ => []

end Position

variable {α β : Type} {f : Finding}

/-! ## The findings of a check -/

namespace Checked

@[simp]
theorem findings_under (c : Checked α) (segment : String) :
    (c.under segment).findings = c.findings.map (·.below segment) := by
  cases c <;> rfl

@[simp]
theorem findings_map (g : α → β) (c : Checked α) : (g <$> c).findings = c.findings := by
  cases c <;> rfl

@[simp]
theorem findings_seq (g : Checked (α → β)) (c : Checked α) :
    (g <*> c).findings = g.findings ++ c.findings := by
  cases g with
  | accepted _ => cases c <;> rfl
  | rejected fs =>
    cases c with
    | accepted _ => exact (List.append_nil fs).symm
    | rejected _ => rfl

@[simp]
theorem findings_withFindings (c : Checked α) (more : List Finding) :
    (c.withFindings more).findings = c.findings ++ more := by
  cases c <;> cases more <;> rfl

/-- A further check takes no finding away. -/
theorem mem_andThen {c : Checked α} {check : α → Checked β} (inside : f ∈ c.findings) :
    f ∈ (c.andThen check).findings := by
  cases c with
  | accepted _ => cases inside
  | rejected _ => exact inside

end Checked

namespace Check

variable {fields : Keyed Json} {k : Key} {form : String} {v : Json}

private theorem mem_required (check : Json → Checked α) (found : k.find? fields = some (form, v))
    (inside : f ∈ (check v).findings) :
    f.below form ∈ (required fields k check).findings := by
  rw [required, found]
  simpa using ⟨f, inside, rfl⟩

private theorem mem_optional (check : Json → Checked α) {absent : α}
    (found : k.find? fields = some (form, v)) (inside : f ∈ (check v).findings) :
    f.below form ∈ (optional fields k absent check).findings := by
  rw [optional, found]
  simpa using ⟨f, inside, rfl⟩

private theorem mem_nullable (check : Json → Checked α) (present : v ≠ .null)
    (inside : f ∈ (check v).findings) :
    f ∈ (nullable check v).findings := by
  unfold nullable
  split
  · exact absurd rfl present
  · cases checked : check _ <;> simp_all [Checked.findings, Checked.map]

private theorem mem_model {name : String} {keys : List Key} {read : Keyed Json → Checked α}
    (inside : f ∈ (read fields).findings) : f ∈ (model name keys read (.object fields)).findings := by
  simp [model, inside]

private theorem mem_unknown {name : String} {keys : List Key} {read : Keyed Json → Checked α}
    {strange : String} (unknown : strange ∈ unknownKeys keys fields) :
    ⟨[strange], .unknownKey⟩ ∈ (model name keys read (.object fields)).findings := by
  simpa [model] using .inr unknown

/-- A key is unknown unless it is the form in which a declared one is there. -/
theorem mem_unknownKeys {keys : List Key} {name : String} : name ∈ unknownKeys keys fields ↔
    name ∈ Keyed.keys fields ∧ ∀ k ∈ keys, k.formIn? fields ≠ some name := by
  simp [unknownKeys]

theorem findings_itemsFrom (check : Json → Checked α) (place : Nat) (items : List Json) :
    (itemsFrom check place items).findings =
      (items.zipIdx place).flatMap fun (v, place) =>
        (check v).findings.map (·.below (toString place)) := by
  induction items generalizing place with
  | nil => rfl
  | cons item rest ih => simp [itemsFrom, ih]

theorem findings_entries (check : Json → Checked α) (fields : Keyed Json) :
    (entries check fields).findings = fields.flatMap fun (name, v) =>
      (check v).findings.map (·.below name) := by
  induction fields with
  | nil => rfl
  | cons field rest ih => simp [entries, ih]

end Check

namespace Part

open Check

/-- A list of objects is read one by one. -/
theorem mem_list {p : Part} (check : Json → Checked α)
    (same : ∀ v, p.findings v = (check v).findings) {v : Json}
    (inside : f ∈ (Position.items p).findings v) : f ∈ (list check v).findings := by
  cases v with
  | list all => simpa [list, findings_itemsFrom, Position.findings, same] using inside
  | _ => exact inside

/-- A map of objects is read one by one. -/
theorem mem_map {p : Part} (check : Json → Checked α)
    (same : ∀ v, p.findings v = (check v).findings) {v : Json}
    (inside : f ∈ (Position.entries p).findings v) : f ∈ (Check.map check v).findings := by
  cases v with
  | object fields => simpa [Check.map, findings_entries, Position.findings, same] using inside
  | _ => exact inside

/-- Identifiers are read one by one, each of them as its name. -/
theorem mem_identifiers {v : Json} (inside : f ∈ (Position.items .identifier).findings v) :
    f ∈ (identifiers v).findings := by
  cases v with
  | list all =>
    simpa [identifiers, findings_itemsFrom, Position.findings, Part.findings, List.zipIdx_map,
      List.flatMap_map] using inside
  | _ => exact inside

private theorem mem_rules {k : Check.Key} {pos : Position} (member : (k, pos) ∈ rules)
    {fields : Keyed Json} {form : String} {v : Json} (found : k.find? fields = some (form, v))
    (inside : f ∈ pos.findings v) :
    f.below form ∈ (containerRules fields).findings := by
  simp only [rules, List.mem_cons, Prod.mk.injEq, List.not_mem_nil, or_false] at member
  simp only [containerRules, findings_seq, findings_map, List.mem_append]
  rcases member with ⟨rfl, rfl⟩ | ⟨rfl, rfl⟩ | ⟨rfl, rfl⟩ | ⟨rfl, rfl⟩
  · exact .inl (.inl (.inl (mem_optional _ found (mem_map _ (fun _ => rfl) inside))))
  · exact .inl (.inl (.inr (mem_optional _ found (mem_map _ (fun _ => rfl) inside))))
  · exact .inl (.inr (mem_optional _ found (mem_map _ (fun _ => rfl) inside)))
  · exact .inr (mem_optional _ found (mem_map _ (fun _ => rfl) inside))

/-- What does not fit under a key is found in the object. -/
theorem findings_of_member {p : Part} (read : p ≠ .identifier) {k : Check.Key} {pos : Position}
    (member : (k, pos) ∈ p.members) {fields : Keyed Json} {form : String} {v : Json}
    (found : k.find? fields = some (form, v)) (present : v ≠ .null) (inside : f ∈ pos.findings v) :
    f.below form ∈ p.findings (.object fields) := by
  cases p with
  | document =>
    simp only [members, List.mem_cons, Prod.mk.injEq, List.not_mem_nil, or_false] at member
    refine mem_model ?_
    rcases member with ⟨rfl, rfl⟩ | ⟨rfl, rfl⟩
    · simp [mem_optional Check.container found inside]
    · simp [mem_optional _ found (mem_map Check.resource (fun _ => rfl) inside)]
  | container => exact mem_model (mem_rules member found inside)
  | resource =>
    rw [findings, Check.resource]
    refine mem_model ?_
    rcases List.mem_append.mp member with rule | member
    · simp [mem_rules rule found inside]
    · simp only [List.mem_cons, Prod.mk.injEq, List.not_mem_nil, or_false] at member
      rcases member with ⟨rfl, rfl⟩ | ⟨rfl, rfl⟩ | ⟨rfl, rfl⟩ | ⟨rfl, rfl⟩
      · simp [mem_optional _ found (mem_identifiers inside)]
      · simp [mem_optional _ found (mem_nullable string present inside)]
      · simp [mem_optional _ found (mem_nullable Check.load present inside)]
      · simp [mem_optional _ found (mem_nullable Check.subResources present inside)]
  | load =>
    simp only [members, List.mem_cons, Prod.mk.injEq, List.not_mem_nil, or_false] at member
    refine mem_model ?_
    rcases member with ⟨rfl, rfl⟩ | ⟨rfl, rfl⟩
    · simp [mem_required Check.request found inside]
    · simp [mem_required string found inside]
  | request =>
    simp only [members, List.mem_cons, Prod.mk.injEq, List.not_mem_nil, or_false] at member
    refine mem_model ?_
    rcases member with ⟨rfl, rfl⟩ | ⟨rfl, rfl⟩
    · simp [mem_required string found inside]
    · simp [mem_optional _ found (mem_list Check.param (fun _ => rfl) inside)]
  | param | source =>
    simp only [members, List.mem_cons, Prod.mk.injEq, List.not_mem_nil, or_false] at member
    simp only [findings, Check.param, Check.source]
    refine mem_model ?_
    rcases member with ⟨rfl, rfl⟩ | ⟨rfl, rfl⟩ | ⟨rfl, rfl⟩
    all_goals
      rw [Position.findings] at inside
      simp [mem_required _ found inside]
  | action =>
    simp only [members, List.mem_cons, Prod.mk.injEq, List.not_mem_nil, or_false] at member
    refine mem_andThen (mem_model ?_)
    rcases member with ⟨rfl, rfl⟩ | ⟨rfl, rfl⟩ | ⟨rfl, rfl⟩
    · simp [mem_required Check.request found inside]
    · simp [mem_optional _ found (mem_nullable string present inside)]
    · simp [mem_optional _ found (mem_nullable Check.build present inside)]
  | build =>
    simp only [members, List.mem_cons, Prod.mk.injEq, List.not_mem_nil, or_false] at member
    refine mem_model ?_
    rcases member with ⟨rfl, rfl⟩ | ⟨rfl, rfl⟩ | ⟨rfl, rfl⟩
    · simp [mem_optional _ found (mem_nullable string present inside)]
    · simp [mem_optional _ found (mem_list Check.source (fun _ => rfl) inside)]
    · simp [mem_optional _ found (mem_nullable string present inside)]
  | call =>
    simp only [members, List.mem_cons, Prod.mk.injEq, List.not_mem_nil, or_false] at member
    refine mem_model ?_
    rcases member with ⟨rfl, rfl⟩ | ⟨rfl, rfl⟩
    · simp [mem_required Check.request found inside]
    · simp [mem_optional Check.build found inside]
  | hasMany =>
    simp only [members, List.mem_cons, Prod.mk.injEq, List.not_mem_nil, or_false] at member
    refine mem_model ?_
    rcases member with ⟨rfl, rfl⟩ | ⟨rfl, rfl⟩ | ⟨rfl, rfl⟩ | ⟨rfl, rfl⟩
    · simp [mem_required string found inside]
    · simp [mem_optional _ found (mem_nullable Check.call present inside)]
    · simp [mem_optional _ found (mem_nullable Check.call present inside)]
    · simp [mem_optional _ found (mem_nullable Check.build present inside)]
  | association =>
    simp only [members, List.mem_cons, Prod.mk.injEq, List.not_mem_nil, or_false] at member
    refine mem_model ?_
    rcases member with ⟨rfl, rfl⟩ | ⟨rfl, rfl⟩
    · simp [mem_required string found inside]
    · simp [mem_optional Check.build found inside]
  | subResources =>
    simp only [members, List.mem_cons, Prod.mk.injEq, List.not_mem_nil, or_false] at member
    refine mem_model ?_
    rcases member with ⟨rfl, rfl⟩ | ⟨rfl, rfl⟩
    · simp [mem_required (list string) found inside]
    · simp [mem_required (Check.map string) found inside]
  | identifier => exact absurd rfl read

/-- An unknown key of an object is found. -/
theorem findings_of_unknown {p : Part} (read : p ≠ .identifier) {name : String} {fields : Keyed Json}
    (unknown : name ∈ unknownKeys p.keys fields) :
    ⟨[name], .unknownKey⟩ ∈ p.findings (.object fields) := by
  cases p with
  | identifier => exact absurd rfl read
  | action => exact mem_andThen (mem_unknown unknown)
  | resource | param | source =>
    simp only [findings, Check.resource, Check.param, Check.source]
    exact mem_unknown unknown
  | _ => exact mem_unknown unknown

/-- A strange key of an object is unknown. -/
theorem Strange.unknown {p : Part} {name : String} (strange : p.Strange name) {fields : Keyed Json}
    (member : name ∈ Keyed.keys fields) : name ∈ unknownKeys p.keys fields := by
  refine mem_unknownKeys.mpr ⟨member, fun k declared found => ?_⟩
  obtain ⟨wire, other⟩ := strange k declared
  exact (form_of_formIn? found).elim wire other

/-- Each key of an object in which everything fits is one of the table. -/
theorem known_of_fine {p : Part} (read : p ≠ .identifier) {fields : Keyed Json}
    (fine : p.findings (.object fields) = []) {name : String} (member : name ∈ Keyed.keys fields) :
    ∃ k pos, (k, pos) ∈ p.members ∧ k.formIn? fields = some name := by
  by_contra none
  have unknown : name ∈ unknownKeys p.keys fields := by
    refine mem_unknownKeys.mpr ⟨member, fun k declared found => ?_⟩
    obtain ⟨⟨k, pos⟩, row, rfl⟩ := List.mem_map.mp declared
    exact none ⟨k, pos, row, found⟩
  have there := findings_of_unknown read unknown
  rw [fine] at there
  cases there

/-- Only an object is read as one. -/
theorem object_of_fine {p : Part} {v : Json} (fine : p.findings v = [])
    (container : v.isContainer = true) :
    ∃ fields, v = .object fields := by
  cases v with
  | object fields => exact ⟨fields, rfl⟩
  | list items => cases p <;> cases fine
  | table entries => cases p <;> cases fine
  | _ => cases container

end Part

namespace Position

/-- What stands under a form of a key is what the table says. -/
theorem step_of_member {p : Part} {k : Check.Key} {pos : Position} (member : (k, pos) ∈ p.members)
    {form : String}
    (own : form = k.wire ∨ form = k.other) : step (object p) form = pos := by
  have rows : ∀ p : Part, ∀ m ∈ p.members, step (object p) m.1.wire = m.2 ∧
      step (object p) m.1.other = m.2 := by
    intro p
    cases p <;> decide
  obtain ⟨wire, other⟩ := rows p _ member
  rcases own with rfl | rfl
  · exact wire
  · exact other

/-- What stands under a key of an object is in its table, or is not looked at. -/
theorem step_object (p : Part) (segment : String) : step (object p) segment = ignored ∨
    ∃ k, (k, step (object p) segment) ∈ p.members ∧ (k.wire = segment ∨ k.other = segment) := by
  have stepped : step (object p) segment =
    ((p.members.find? fun m => m.1.wire == segment || m.1.other == segment).map Prod.snd).getD
      ignored := rfl
  rw [stepped]
  cases found : p.members.find? fun m => m.1.wire == segment || m.1.other == segment with
  | none => exact .inl rfl
  | some m =>
    have own := List.find?_some found
    exact .inr ⟨m.1, List.mem_of_find?_eq_some found, by simpa using own⟩

theorem along_cons (pos : Position) (segment : String) (rest : List String) :
    pos.along (segment :: rest) = (pos.step segment).along rest := rfl

/-- Nothing is looked at below what is not looked at. -/
theorem along_ignored (location : List String) : ignored.along location = ignored := by
  induction location with
  | nil => rfl
  | cons segment rest ih => exact ih

end Position

end ResourceGraph
