import ResourceGraph.Document.Lint
import ResourceGraph.Model.Compile
import ResourceGraph.Proofs.Schema

/-!
Keys that do not belong where they stand. In a document that fits the schema every object is of one
of the kinds of the table, or a map whose keys are names, apart from what an identifier has beside
its name. A key added to an object of the table that is no form of one of its keys is found,
wherever the object stands, so that the document is refused. The exception is an identifier that is
written as an object: nothing but its name is looked at, and another key there changes nothing.
-/

namespace ResourceGraph

open Checked

/-- One object of a document is another one: it stands at the end of a location, and everything else
is as it was. -/
inductive Json.Alters (fields fields' : Keyed Json) : Json → List String → Json → Prop
  | here : Alters fields fields' (.object fields) [] (.object fields')
  | member {before after : Keyed Json} {key : String} {v v' : Json} {location : List String}
      (fresh : key ∉ Keyed.keys before) (inside : Alters fields fields' v location v') :
      Alters fields fields' (.object (before ++ (key, v) :: after)) (key :: location)
        (.object (before ++ (key, v') :: after))
  | item {front rest : List Json} {v v' : Json} {location : List String}
      (inside : Alters fields fields' v location v') :
      Alters fields fields' (.list (front ++ v :: rest)) (toString front.length :: location)
        (.list (front ++ v' :: rest))

/-- The object stands in the first member of an object. -/
theorem Json.Alters.first {fields fields' after : Keyed Json} {key : String} {v v' : Json}
    {location : List String} (inside : Alters fields fields' v location v') :
    Alters fields fields' (.object ((key, v) :: after)) (key :: location)
      (.object ((key, v') :: after)) := by
  have fresh : key ∉ Keyed.keys ([] : Keyed Json) := List.not_mem_nil
  exact .member fresh inside

/-- The finding of what stands at the end of a location. -/
def Finding.within (f : Finding) (location : List String) : Finding :=
  { f with location := location ++ f.location }

/-- The location leads to what an identifier has beside its name. -/
def Position.BesideName (pos : Position) (location : List String) : Prop :=
  ∃ front name rest, location = front ++ name :: rest ∧ pos.along front = .object .identifier ∧
    name ≠ "name"

variable {fields fields' before after : Keyed Json} {key name : String} {v v' : Json}
    {location : List String}
  {pos : Position} {f : Finding}

/-! ## Objects with one member replaced -/

theorem Keyed.get?_here {α : Type} {before after : Keyed α} {key : String}
    (fresh : key ∉ keys before) (a : α) :
    get? (before ++ (key, a) :: after) key = some a := by
  induction before with
  | nil => simp [get?]
  | cons entry rest ih =>
    obtain ⟨first, others⟩ := List.ne_and_not_mem_of_not_mem_cons fresh
    rw [List.cons_append, get?, if_neg first.symm]
    exact ih others

theorem Keyed.get?_elsewhere {α : Type} (before after : Keyed α) {key name : String}
    (other : name ≠ key) (a : α) :
    get? (before ++ (key, a) :: after) name = get? (before ++ after) name := by
  induction before with
  | nil => rw [List.nil_append, get?, if_neg other.symm, List.nil_append]
  | cons entry rest ih =>
    rw [List.cons_append, List.cons_append, get?, get?, ih]

namespace Check

theorem formIn?_replaced (k : Key) (v v' : Json) :
    k.formIn? (before ++ (key, v') :: after) = k.formIn? (before ++ (key, v) :: after) := by
  have same : ∀ name, Keyed.has (before ++ (key, v') :: after) name =
      Keyed.has (before ++ (key, v) :: after) name := by
    intro name
    rw [Bool.eq_iff_iff, Keyed.has_iff, Keyed.has_iff]
    simp [Keyed.keys]
  rw [Key.formIn?, Key.formIn?, same, same]

private theorem find?_here {k : Key} (fresh : key ∉ Keyed.keys before)
    (found : k.formIn? (before ++ (key, v) :: after) = some key) :
    k.find? (before ++ (key, v) :: after) = some (key, v) := by
  rw [Key.find?, found, Option.bind_some, Keyed.get?_here fresh]
  rfl

variable {α : Type} {check : Json → Checked α}

/-- A part of an object is read as before when the member that is replaced is read as before, or is
another. -/
theorem optional_replaced (fresh : key ∉ Keyed.keys before) {k : Key} {absent : α}
    (same : k.wire = key ∨ k.other = key → check v' = check v) :
    optional (before ++ (key, v') :: after) k absent check =
      optional (before ++ (key, v) :: after) k absent check := by
  rw [optional, optional, Key.find?, Key.find?, formIn?_replaced k v v']
  cases found : k.formIn? (before ++ (key, v) :: after) with
  | none => rfl
  | some form =>
    rw [Option.bind_some, Option.bind_some]
    by_cases here : form = key
    · subst here
      rw [Keyed.get?_here fresh, Keyed.get?_here fresh]
      simp [same ((form_of_formIn? found).imp Eq.symm Eq.symm)]
    · rw [Keyed.get?_elsewhere before after here, Keyed.get?_elsewhere before after here]

private theorem optional_apart (v v' : Json) (fresh : key ∉ Keyed.keys before) {k : Key} {absent : α}
    (apart : ¬ (k.wire = key ∨ k.other = key)) :
    optional (before ++ (key, v') :: after) k absent check =
      optional (before ++ (key, v) :: after) k absent check :=
  optional_replaced fresh fun own => absurd own apart

private theorem model_replaced {name : String} {keys : List Key} {read : Keyed Json → Checked α}
    (same : read (before ++ (key, v') :: after) = read (before ++ (key, v) :: after)) :
    model name keys read (.object (before ++ (key, v') :: after)) =
      model name keys read (.object (before ++ (key, v) :: after)) := by
  simp only [model, same, unknownKeys, formIn?_replaced _ v v', Keyed.keys, List.map_append,
    List.map_cons]

private theorem entries_replaced (same : check v' = check v) :
    entries check (before ++ (key, v') :: after) = entries check (before ++ (key, v) :: after) := by
  induction before with
  | nil => simp only [List.nil_append, entries, same]
  | cons entry rest ih => rw [List.cons_append, List.cons_append, entries, entries, ih]

private theorem itemsFrom_replaced (same : check v' = check v) (place : Nat) (front rest : List Json) :
    itemsFrom check place (front ++ v' :: rest) = itemsFrom check place (front ++ v :: rest) := by
  induction front generalizing place with
  | nil => simp only [List.nil_append, itemsFrom, same]
  | cons item others ih => rw [List.cons_append, List.cons_append, itemsFrom, itemsFrom, ih]

end Check

/-! ## What is found -/

namespace Json.Alters

private theorem not_text (alters : Alters fields fields' v location v') :
    (Check.string v).findings ≠ [] := by
  cases alters <;> exact nofun

private theorem present (alters : Alters fields fields' v location v') : v ≠ .null ∧ v' ≠ .null := by
  cases alters <;> exact ⟨nofun, nofun⟩

end Json.Alters

namespace Part

/-- A member of an object in which everything fits stands where the table says, and everything fits
in it. -/
theorem fine_member {p : Part} (read : p ≠ .identifier) (fresh : key ∉ Keyed.keys before)
    (present : v ≠ .null) (fine : p.findings (.object (before ++ (key, v) :: after)) = []) :
    ∃ k, (k, (Position.object p).step key) ∈ p.members ∧
      k.formIn? (before ++ (key, v) :: after) = some key ∧
        ((Position.object p).step key).findings v = [] := by
  have there : key ∈ Keyed.keys (before ++ (key, v) :: after) := by simp [Keyed.keys]
  obtain ⟨k, pos, member, found⟩ := known_of_fine read fine there
  obtain rfl := Position.step_of_member member (Check.form_of_formIn? found)
  refine ⟨k, member, found, List.eq_nil_iff_forall_not_mem.mpr fun f inside => ?_⟩
  have finding := findings_of_member read member (Check.find?_here fresh found) present inside
  rw [fine] at finding
  cases finding

end Part

namespace Position

private theorem looked_at_of_member {p : Part} {k : Check.Key} (member : (k, pos) ∈ p.members) :
    pos ≠ ignored := by
  have rows : ∀ p : Part, ∀ m ∈ p.members, m.2 ≠ ignored := by
    intro p
    cases p <;> decide
  exact rows p _ member

/-- No object of the table stands below an identifier. -/
theorem below_identifier (segment : String) (rest : List String) (p : Part) :
    ((object .identifier).step segment).along rest ≠ object p := by
  rcases step_object .identifier segment with unknown | ⟨k, member, -⟩
  · rw [unknown, along_ignored]
    intro same
    cases same
  · have text : (object .identifier).step segment = text := by
      simp only [Part.members, List.mem_singleton, Prod.mk.injEq] at member
      exact member.2
    rw [text]
    cases rest with
    | nil =>
      intro same
      cases same
    | cons next rest =>
      change ignored.along rest ≠ object p
      rw [along_ignored]
      intro same
      cases same

/-- Everything fits in each object of a list in which everything fits. -/
theorem fine_item {p : Part} {front rest : List Json}
    (fine : (items p).findings (.list (front ++ v :: rest)) = []) :
    p.findings v = [] := by
  have there : (v, front.length) ∈ (front ++ v :: rest).zipIdx := by
    rw [List.zipIdx_append]
    simp
  simpa using List.flatMap_eq_nil_iff.mp fine _ there

/-- Everything fits in each object of a map in which everything fits. -/
theorem fine_entry {p : Part}
    (fine : (entries p).findings (.object (before ++ (key, v) :: after)) = []) :
    p.findings v = [] := by
  simpa using List.flatMap_eq_nil_iff.mp fine (key, v) (by simp)

theorem BesideName.under (beside : (pos.step key).BesideName location) :
    pos.BesideName (key :: location) := by
  obtain ⟨front, name, rest, rfl, leads, other⟩ := beside
  exact ⟨key :: front, name, rest, rfl, leads, other⟩

end Position

namespace Json.Alters

open Position

/-- What does not fit in the other object is found in the document, at the location of the object. -/
theorem found (alters : Alters fields fields' v location v') {p : Part}
    (leads : pos.along location = .object p) (fine : pos.findings v = [])
    (inside : f ∈ p.findings (.object fields')) :
    f.within location ∈ pos.findings v' := by
  -- By induction on the location, one case for what an object, a list or a map has there.
  induction alters generalizing pos with
  | here =>
    obtain rfl : pos = .object p := leads
    exact inside
  | @member before after key u u' location fresh inner ih =>
    rw [along_cons] at leads
    cases pos with
    | object q =>
      have own : q ≠ .identifier := by
        rintro rfl
        exact below_identifier key location p leads
      obtain ⟨k, member, counted, fit⟩ := Part.fine_member own fresh inner.present.1 fine
      rw [← Check.formIn?_replaced k u u'] at counted
      exact Part.findings_of_member own member (Check.find?_here fresh counted) inner.present.2
        (ih leads fit)
    | entries q =>
      have deeper := ih leads (fine_entry fine)
      exact List.mem_flatMap.mpr ⟨(key, u'), by simp, List.mem_map_of_mem deeper⟩
    | items q => cases fine
    | _ =>
      change ignored.along location = _ at leads
      rw [along_ignored] at leads
      cases leads
  | @item front rest u u' location inner ih =>
    rw [along_cons] at leads
    cases pos with
    | object q =>
      obtain ⟨fields, same⟩ := Part.object_of_fine fine rfl
      cases same
    | items q =>
      have deeper := ih leads (fine_item fine)
      have there : (u', front.length) ∈ (front ++ u' :: rest).zipIdx := by
        rw [List.zipIdx_append]
        simp
      exact List.mem_flatMap.mpr ⟨(u', front.length), there, List.mem_map_of_mem deeper⟩
    | entries q => cases fine
    | _ =>
      change ignored.along location = _ at leads
      rw [along_ignored] at leads
      cases leads

/-- An object of a document in which everything fits is one of the table or a map, unless it belongs
to what an identifier has beside its name. -/
theorem stands (alters : Alters fields fields' v location v') (fine : pos.findings v = [])
    (looked : pos ≠ .ignored) :
    (pos.along location).HoldsObject ∨ pos.BesideName location := by
  induction alters generalizing pos with
  | here =>
    cases pos with
    | object p => exact .inl trivial
    | entries p => exact .inl trivial
    | names => exact .inl trivial
    | ignored => exact absurd rfl looked
    | _ => cases fine
  | @member before after key u u' location fresh inner ih =>
    cases pos with
    | object p =>
      by_cases own : p = .identifier
      · subst own
        refine .inr ⟨[], key, location, rfl, rfl, ?_⟩
        rintro rfl
        simp only [Position.findings, Part.findings, Check.identifierName, Keyed.get?_here fresh,
          Option.getD_some] at fine
        exact inner.not_text fine
      · obtain ⟨k, member, -, fit⟩ := Part.fine_member own fresh inner.present.1 fine
        exact (ih fit (looked_at_of_member member)).imp_right BesideName.under
    | entries p =>
      exact (@ih (.object p) (fine_entry fine) fun same => by cases same).imp_right BesideName.under
    | names =>
      have text : (Check.string u).findings = [] := by
        simp only [Position.findings, Check.map, Check.findings_entries, List.flatMap_eq_nil_iff] at fine
        simpa using fine (key, u) (by simp)
      exact absurd text inner.not_text
    | ignored => exact absurd rfl looked
    | _ => cases fine
  | @item front rest u u' location inner ih =>
    cases pos with
    | object p =>
      obtain ⟨fields, same⟩ := Part.object_of_fine fine rfl
      cases same
    | items p =>
      exact (@ih (.object p) (fine_item fine) fun same => by cases same).imp_right BesideName.under
    | texts =>
      have text : (Check.string u).findings = [] := by
        simp only [Position.findings, Check.list, Check.findings_itemsFrom,
          List.flatMap_eq_nil_iff] at fine
        simpa using fine (u, front.length) (by simp [List.zipIdx_append])
      exact absurd text inner.not_text
    | ignored => exact absurd rfl looked
    | _ => cases fine

end Json.Alters

/-! ## What is not looked at -/

namespace Position

/-- The kinds of objects that identifiers stand in. -/
def holders : List Part := [.document, .resource, .identifier]

/-- Under a key of an object, identifiers stand in the resources of the document and as those of a
resource only. -/
theorem holder_of_member {p q : Part} {k : Check.Key} (member : (k, pos) ∈ p.members)
    (near : q ∈ holders) (there : pos ∈ [object q, items q, entries q]) :
    (p = .document ∧ k.wire = "resources" ∧ k.other = "resources") ∨
      (p = .resource ∧ k.wire = "identifiers" ∧ k.other = "identifiers") := by
  have rows : ∀ p : Part, ∀ m ∈ p.members, ∀ q ∈ holders, m.2 ∈ [object q, items q, entries q] →
      (p = .document ∧ m.1.wire = "resources" ∧ m.1.other = "resources") ∨
        (p = .resource ∧ m.1.wire = "identifiers" ∧ m.1.other = "identifiers") := by
    intro p
    cases p <;> decide
  exact rows p _ member q near there

/-- Identifiers stand in resources only, and resources in the document. -/
theorem leads_to_identifier (leads : pos.along location = .object .identifier) :
    ∃ p ∈ holders, pos ∈ [object p, items p, entries p] := by
  induction location generalizing pos with
  | nil =>
    obtain rfl : pos = object .identifier := leads
    exact ⟨.identifier, by decide, by decide⟩
  | cons segment rest ih =>
    obtain ⟨q, near, there⟩ := ih leads
    cases pos with
    | object p =>
      rcases step_object p segment with unknown | ⟨k, member, -⟩
      · rw [unknown] at there
        simp at there
      · rcases holder_of_member member near there with ⟨rfl, -⟩ | ⟨rfl, -⟩
        · exact ⟨.document, by decide, by decide⟩
        · exact ⟨.resource, by decide, by decide⟩
    | items p | entries p =>
      obtain rfl : p = q := by simpa [step] using there
      exact ⟨p, near, by simp⟩
    | _ => simp [step] at there

/-- From an object that is no identifier, identifiers are reached in two ways. -/
theorem step_to_identifier {p : Part}
    (leads : ((object p).step key).along location = object .identifier) :
    (p = .document ∧ key = "resources") ∨ (p = .resource ∧ key = "identifiers") := by
  rcases step_object p key with unknown | ⟨k, member, own⟩
  · rw [unknown, along_ignored] at leads
    cases leads
  · obtain ⟨q, near, there⟩ := leads_to_identifier leads
    rcases holder_of_member member near there with ⟨same, wire, other⟩ | ⟨same, wire, other⟩
    · exact .inl ⟨same, by rcases own with rfl | rfl <;> assumption⟩
    · exact .inr ⟨same, by rcases own with rfl | rfl <;> assumption⟩

/-- Two values are read as the same, at a place where identifiers may stand in them. -/
def Alike : Position → Json → Json → Prop
  | object .document, v, v' => Check.document v' = Check.document v
  | entries .resource, v, v' => Check.map Check.resource v' = Check.map Check.resource v
  | object .resource, v, v' => Check.resource v' = Check.resource v
  | items .identifier, v, v' => Check.identifiers v' = Check.identifiers v
  | object .identifier, v, v' =>
    Check.string (Check.identifierName v') = Check.string (Check.identifierName v)
  | _, _, _ => True

end Position

namespace Json.Alters

open Position Check

/-- A document in which an identifier is another object with the same name is read as before. -/
theorem unread (alters : Alters fields fields' v location v')
    (leads : pos.along location = .object .identifier)
    (same : Keyed.get? fields' "name" = Keyed.get? fields "name") : pos.Alike v v' := by
  induction alters generalizing pos with
  | here =>
    obtain rfl : pos = .object .identifier := leads
    simp only [Alike, identifierName, same]
    cases Keyed.get? fields "name" <;> rfl
  | @member before after key u u' location fresh inner ih =>
    rw [along_cons] at leads
    cases pos with
    | object p =>
      rcases step_to_identifier leads with ⟨rfl, rfl⟩ | ⟨rfl, rfl⟩
      · have resources : Check.map Check.resource u' = Check.map Check.resource u :=
          @ih (.entries .resource) leads
        refine model_replaced ?_
        rw [optional_apart u u' fresh (by decide), optional_replaced fresh fun _ => resources]
      · have names : Check.identifiers u' = Check.identifiers u := @ih (.items .identifier) leads
        rw [Alike, Check.resource]
        refine model_replaced ?_
        rw [optional_replaced (k := key "identifiers") fresh fun _ => names]
        simp (disch := decide) only [containerRules, optional_apart u u' fresh]
    | entries p =>
      cases p with
      | resource => exact entries_replaced (@ih (.object .resource) leads)
      | _ => trivial
    | items p => cases p <;> trivial
    | _ => trivial
  | @item front rest u u' location inner ih =>
    rw [along_cons] at leads
    cases pos with
    | items p =>
      cases p with
      | identifier =>
        simp only [Alike, identifiers, List.map_append, List.map_cons]
        exact itemsFrom_replaced (@ih (.object .identifier) leads) 0 _ _
      | _ => trivial
    | object p => cases p <;> trivial
    | entries p => cases p <;> trivial
    | _ => trivial

end Json.Alters

/-! ## Documents with a stray key -/

namespace Document

/-- The document is refused with this finding: as a definition, and by the validator, which reports
it. -/
def RefusedFor (given : Json) (f : Finding) : Prop :=
  f ∈ (read given).findings ∧ (∃ remarks, lint given = .ok remarks ∧ .schema f ∈ remarks) ∧
    ∀ service factory, ∃ count, Model.compile given service factory =
      .error (.definition (.schema count))

private theorem refusedFor_of_mem {given : Json} (inside : f ∈ (read given).findings) :
    RefusedFor given f := by
  refine ⟨inside, ?_⟩
  cases rejected : read given with
  | accepted d =>
    rw [rejected] at inside
    cases inside
  | rejected findings =>
    rw [rejected] at inside
    constructor
    · exact ⟨findings.map .schema, by rw [lint, rejected], List.mem_map_of_mem inside⟩
    · intro service factory
      exact ⟨findings.length, by rw [Model.compile, rejected]⟩

/-- **Stray keys.** In a document that fits the schema every object is of one of the kinds of the
table, or a map whose keys are names, apart from what an identifier has beside its name. When a key
that is no form of a key there is added to an object of the table, the document is refused for it,
unless the object stands for an identifier: then the document is read, linted and compiled as
before. -/
theorem stray_key {d : Document} {given given' value : Json} (fits : read given = .accepted d)
    (added : Json.Alters (before ++ after) (before ++ (key, value) :: after) given location given') :
    (((Position.object .document).along location).HoldsObject ∨
      (Position.object .document).BesideName location) ∧
    ∀ p, (Position.object .document).along location = .object p → p.Strange key →
      (p ≠ .identifier → RefusedFor given' ⟨location ++ [key], .unknownKey⟩) ∧
      (p = .identifier → read given' = .accepted d ∧ lint given' = lint given ∧
        Model.compile given' = Model.compile given) := by
  have fine : (Position.object .document).findings given = [] := by
    change (read given).findings = []
    rw [fits]
    rfl
  refine ⟨added.stands fine nofun, fun p leads strange => ⟨fun read => ?_, ?_⟩⟩
  · have unknown : key ∈ Check.unknownKeys p.keys (before ++ (key, value) :: after) :=
      strange.unknown (by simp [Keyed.keys])
    exact refusedFor_of_mem (added.found leads fine (Part.findings_of_unknown read unknown))
  · rintro rfl
    have apart : "name" ≠ key := (strange (Check.key "name") (List.mem_singleton_self _)).1.symm
    have same : Document.read given' = Document.read given :=
      added.unread leads (Keyed.get?_elsewhere before after apart value)
    refine ⟨same.trans fits, by rw [lint, lint, same], ?_⟩
    funext service factory
    rw [Model.compile, Model.compile, same]

/-- A document with the rules of one resource type. -/
def ofUser (rules : Keyed Json) : Json := .object [("resources", .object [("User", .object rules)])]

/-- An identifier that is written as an object. -/
def namedIdentifier (beside : Keyed Json) : String × Json :=
  ("identifiers", .list [.object (("name", .str "Name") :: beside)])

/-- The document with one identifier, as it is read. -/
def named : Document := { resources := [("User", { identifiers := ["Name"] })] }

theorem stray_key_shape : read (ofUser [namedIdentifier []]) = .accepted named ∧
    RefusedFor (ofUser [namedIdentifier [], ("Shape", .str "User")])
      ⟨["resources", "User", "Shape"], .unknownKey⟩ := by
  have added : Json.Alters ([namedIdentifier []] ++ [])
      ([namedIdentifier []] ++ ("Shape", .str "User") :: [])
      (ofUser [namedIdentifier []]) ["resources", "User"]
      (ofUser [namedIdentifier [], ("Shape", .str "User")]) :=
    .first (.first .here)
  have fits : read (ofUser [namedIdentifier []]) = .accepted named := rfl
  exact ⟨fits, ((stray_key fits added).2 .resource rfl (by decide)).1 (by decide)⟩

/-- The key of a member beside the name of an identifier is no form of a key there, but the document
that has it is accepted, and no remark is made. -/
theorem memberName_accepted :
    let identifier : Keyed Json := [("name", .str "Name")]
    let stray : String × Json := ("memberName", .str "x")
    Json.Alters identifier (identifier ++ [stray]) (ofUser [namedIdentifier []])
        ["resources", "User", "identifiers", "0"] (ofUser [namedIdentifier [stray]]) ∧
      (Position.object .document).along ["resources", "User", "identifiers", "0"] = .object .identifier ∧
      Part.identifier.Strange "memberName" ∧
      read (ofUser [namedIdentifier []]) = .accepted named ∧
      read (ofUser [namedIdentifier [stray]]) = .accepted named ∧
      lint (ofUser [namedIdentifier [stray]]) = .ok [] := by
  intro identifier stray
  refine ⟨?_, by decide, by decide, rfl, rfl, rfl⟩
  have inside : Json.Alters identifier (identifier ++ [stray]) (.list ([] ++ [.object identifier]))
      ["0"] (.list ([] ++ [.object (identifier ++ [stray])])) := .item .here
  exact .first (.first (.first inside))

end Document

end ResourceGraph
