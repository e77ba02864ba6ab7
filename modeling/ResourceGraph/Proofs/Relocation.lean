import Mathlib.Data.List.Nodup
import Mathlib.Data.Finset.Card
import ResourceGraph.Path.Function
import ResourceGraph.Proofs.Regions

/-!
Relocations: what a store keeps, kept at other places of another one. Containers are told apart by
their places and by nothing else, so a datum and what a relocation moves it to open alike, spell out
the same tree, have the same entries, and compare with other data alike.
-/

namespace ResourceGraph

namespace Value

variable {ρ σ τ : Type}

mutual

/-- What is replaced by values stands for what those stand for. -/
theorem bind?_bind (f : ρ → Value σ) (g : σ → Option (Value τ)) (v : Value ρ) :
    (v.bind f).bind? g = v.bind? fun share => (f share).bind? g := by
  cases v with
  | list items => simp only [bind, bind?, bindItems?_bindItems f g items]
  | object fields => simp only [bind, bind?, bindFields?_bindFields f g fields]
  | table entries => simp only [bind, bind?, bindEntries?_bindEntries f g entries]
  | _ => simp only [bind, bind?]

theorem bindItems?_bindItems (f : ρ → Value σ) (g : σ → Option (Value τ)) (items : List (Value ρ)) :
    bindItems? g (bindItems f items) = bindItems? (fun share => (f share).bind? g) items := by
  cases items with
  | nil => rfl
  | cons v rest => simp only [bindItems, bindItems?, bind?_bind f g v, bindItems?_bindItems f g rest]

theorem bindFields?_bindFields (f : ρ → Value σ) (g : σ → Option (Value τ))
    (fields : List (String × Value ρ)) :
    bindFields? g (bindFields f fields) = bindFields? (fun share => (f share).bind? g) fields := by
  cases fields with
  | nil => rfl
  | cons entry rest =>
    simp only [bindFields, bindFields?, bind?_bind f g entry.2, bindFields?_bindFields f g rest]

theorem bindEntries?_bindEntries (f : ρ → Value σ) (g : σ → Option (Value τ))
    (entries : List (Value ρ × Value ρ)) :
    bindEntries? g (bindEntries f entries) = bindEntries? (fun share => (f share).bind? g) entries := by
  cases entries with
  | nil => rfl
  | cons entry rest =>
    simp only [bindEntries, bindEntries?, bind?_bind f g entry.1, bind?_bind f g entry.2,
      bindEntries?_bindEntries f g rest]

end

mutual

/-- A value spells something out where all its shares do. -/
theorem isSome_bind? {f : ρ → Option (Value σ)} {v : Value ρ} :
    (v.bind? f).isSome ↔ v.Every fun share => (f share).isSome := by
  cases v with
  | list items => simpa [bind?, Every] using isSome_bindItems?
  | object fields => simpa [bind?, Every] using isSome_bindFields?
  | table entries => simpa [bind?, Every] using isSome_bindEntries?
  | shared share => rfl
  | _ => exact iff_of_true rfl trivial

theorem isSome_bindItems? {f : ρ → Option (Value σ)} {items : List (Value ρ)} :
    (bindItems? f items).isSome ↔ EveryItem (fun share => (f share).isSome) items := by
  cases items with
  | nil => exact iff_of_true rfl trivial
  | cons v rest =>
    rw [EveryItem, ← isSome_bind?, ← isSome_bindItems?, bindItems?]
    cases v.bind? f <;> cases bindItems? f rest <;> simp

theorem isSome_bindFields? {f : ρ → Option (Value σ)} {fields : List (String × Value ρ)} :
    (bindFields? f fields).isSome ↔ EveryField (fun share => (f share).isSome) fields := by
  cases fields with
  | nil => exact iff_of_true rfl trivial
  | cons entry rest =>
    rw [EveryField, ← isSome_bind?, ← isSome_bindFields?, bindFields?]
    cases entry.2.bind? f <;> cases bindFields? f rest <;> simp

theorem isSome_bindEntries? {f : ρ → Option (Value σ)} {entries : List (Value ρ × Value ρ)} :
    (bindEntries? f entries).isSome ↔ EveryEntry (fun share => (f share).isSome) entries := by
  cases entries with
  | nil => exact iff_of_true rfl trivial
  | cons entry rest =>
    rw [EveryEntry, ← isSome_bind?, ← isSome_bind?, ← isSome_bindEntries?, bindEntries?]
    cases entry.1.bind? f <;> cases entry.2.bind? f <;> cases bindEntries? f rest <;> simp

end

mutual

/-- A value that is left as it is has only shares that are left as they are. -/
theorem every_of_bind_self {f : ρ → ρ} {v : Value ρ}
    (same : v.bind (fun share => .shared (f share)) = v) :
    v.Every fun share => f share = share := by
  cases v with
  | list items => exact everyItem_of_bind_self (Value.list.inj same)
  | object fields => exact everyField_of_bind_self (Value.object.inj same)
  | table entries => exact everyEntry_of_bind_self (Value.table.inj same)
  | shared share => exact Value.shared.inj same
  | _ => trivial

theorem everyItem_of_bind_self {f : ρ → ρ} {items : List (Value ρ)}
    (same : bindItems (fun share => .shared (f share)) items = items) :
    EveryItem (fun share => f share = share) items := by
  cases items with
  | nil => trivial
  | cons v rest =>
    obtain ⟨first, left⟩ := List.cons.inj same
    exact ⟨every_of_bind_self first, everyItem_of_bind_self left⟩

theorem everyField_of_bind_self {f : ρ → ρ} {fields : List (String × Value ρ)}
    (same : bindFields (fun share => .shared (f share)) fields = fields) :
    EveryField (fun share => f share = share) fields := by
  cases fields with
  | nil => trivial
  | cons entry rest =>
    obtain ⟨first, left⟩ := List.cons.inj same
    exact ⟨every_of_bind_self (congrArg Prod.snd first), everyField_of_bind_self left⟩

theorem everyEntry_of_bind_self {f : ρ → ρ} {entries : List (Value ρ × Value ρ)}
    (same : bindEntries (fun share => .shared (f share)) entries = entries) :
    EveryEntry (fun share => f share = share) entries := by
  cases entries with
  | nil => trivial
  | cons entry rest =>
    obtain ⟨first, left⟩ := List.cons.inj same
    exact ⟨⟨every_of_bind_self (congrArg Prod.fst first), every_of_bind_self (congrArg Prod.snd first)⟩,
      everyEntry_of_bind_self left⟩

end

mutual

theorem Every.both {P Q : ρ → Prop} {v : Value ρ} (one : v.Every P) (other : v.Every Q) :
    v.Every fun share => P share ∧ Q share := by
  cases v with
  | list items => exact EveryItem.both one other
  | object fields => exact EveryField.both one other
  | table entries => exact EveryEntry.both one other
  | shared share => exact ⟨one, other⟩
  | _ => trivial

theorem EveryItem.both {P Q : ρ → Prop} {items : List (Value ρ)} (one : EveryItem P items)
    (other : EveryItem Q items) : EveryItem (fun share => P share ∧ Q share) items := by
  cases items with
  | nil => trivial
  | cons v rest => exact ⟨Every.both one.1 other.1, EveryItem.both one.2 other.2⟩

theorem EveryField.both {P Q : ρ → Prop} {fields : List (String × Value ρ)} (one : EveryField P fields)
    (other : EveryField Q fields) : EveryField (fun share => P share ∧ Q share) fields := by
  cases fields with
  | nil => trivial
  | cons entry rest => exact ⟨Every.both one.1 other.1, EveryField.both one.2 other.2⟩

theorem EveryEntry.both {P Q : ρ → Prop} {entries : List (Value ρ × Value ρ)}
    (one : EveryEntry P entries)
    (other : EveryEntry Q entries) : EveryEntry (fun share => P share ∧ Q share) entries := by
  cases entries with
  | nil => trivial
  | cons entry rest =>
    exact ⟨⟨Every.both one.1.1 other.1.1, Every.both one.1.2 other.1.2⟩, EveryEntry.both one.2 other.2⟩

end

mutual

theorem bind_congr {f g : ρ → Value σ} {v : Value ρ} (every : v.Every fun share => f share = g share) :
    v.bind f = v.bind g := by
  cases v with
  | list items => simp only [bind, bindItems_congr every]
  | object fields => simp only [bind, bindFields_congr every]
  | table entries => simp only [bind, bindEntries_congr every]
  | shared share => exact every
  | _ => rfl

theorem bindItems_congr {f g : ρ → Value σ} {items : List (Value ρ)}
    (every : EveryItem (fun share => f share = g share) items) :
    bindItems f items = bindItems g items := by
  cases items with
  | nil => rfl
  | cons v rest => simp only [bindItems, bind_congr every.1, bindItems_congr every.2]

theorem bindFields_congr {f g : ρ → Value σ} {fields : List (String × Value ρ)}
    (every : EveryField (fun share => f share = g share) fields) :
    bindFields f fields = bindFields g fields := by
  cases fields with
  | nil => rfl
  | cons entry rest => simp only [bindFields, bind_congr every.1, bindFields_congr every.2]

theorem bindEntries_congr {f g : ρ → Value σ} {entries : List (Value ρ × Value ρ)}
    (every : EveryEntry (fun share => f share = g share) entries) :
    bindEntries f entries = bindEntries g entries := by
  cases entries with
  | nil => rfl
  | cons entry rest =>
    simp only [bindEntries, bind_congr every.1.1, bind_congr every.1.2, bindEntries_congr every.2]

end

mutual

theorem bind_shared (v : Value ρ) : v.bind shared = v := by
  cases v with
  | list items => simp only [bind, bindItems_shared items]
  | object fields => simp only [bind, bindFields_shared fields]
  | table entries => simp only [bind, bindEntries_shared entries]
  | _ => rfl

theorem bindItems_shared (items : List (Value ρ)) : bindItems shared items = items := by
  cases items with
  | nil => rfl
  | cons v rest => simp only [bindItems, bind_shared v, bindItems_shared rest]

theorem bindFields_shared (fields : List (String × Value ρ)) : bindFields shared fields = fields := by
  cases fields with
  | nil => rfl
  | cons entry rest => simp only [bindFields, bind_shared entry.2, bindFields_shared rest]

theorem bindEntries_shared (entries : List (Value ρ × Value ρ)) :
    bindEntries shared entries = entries := by
  cases entries with
  | nil => rfl
  | cons entry rest =>
    simp only [bindEntries, bind_shared entry.1, bind_shared entry.2, bindEntries_shared rest]

end

end Value

namespace Path.Expr

variable {P Q : Share → Prop}

mutual

/-- Every share in what the expression writes out has the property. -/
def Every (P : Share → Prop) : Expr → Prop
  | .literal value => value.Every P
  | .chain steps => EveryOf P steps
  | .flatten inner | .negate inner | .quotation inner => Every P inner
  | .pipe left right | .each left right | .eachValue left right | .compare _ left right
  | .either left right | .both left right => Every P left ∧ Every P right
  | .filter list rhs condition => Every P list ∧ Every P rhs ∧ Every P condition
  | .listOf elements => EveryOf P elements
  | .objectOf members => EveryMember P members
  | .call _ arguments => EveryOf P arguments
  | .current | .field _ | .index _ | .slice _ _ _ => True

/-- Every share in what the expressions write out has the property. -/
def EveryOf (P : Share → Prop) : List Expr → Prop
  | [] => True
  | e :: rest => Every P e ∧ EveryOf P rest

/-- Every share in what the expressions of members write out has the property. -/
def EveryMember (P : Share → Prop) : List (String × Expr) → Prop
  | [] => True
  | (_, e) :: rest => Every P e ∧ EveryMember P rest

end

theorem everyOf_iff {es : List Expr} : EveryOf P es ↔ ∀ e ∈ es, e.Every P := by
  induction es with
  | nil => simp [EveryOf]
  | cons e rest ih => simp [EveryOf, ih]

theorem everyMember_iff {members : List (String × Expr)} :
    EveryMember P members ↔ ∀ member ∈ members, member.2.Every P := by
  induction members with
  | nil => simp [EveryMember]
  | cons member rest ih => simp [EveryMember, ih]

mutual

theorem Every.mono (more : ∀ share, P share → Q share) {e : Expr} (every : e.Every P) : e.Every Q := by
  cases e with
  | literal value => exact Value.Every.mono more every
  | chain steps | listOf elements | call function arguments => exact EveryOf.mono more every
  | objectOf members => exact EveryMember.mono more every
  | flatten inner | negate inner | quotation inner => exact Every.mono more (e := inner) every
  | pipe left right | each left right | eachValue left right | compare _ left right
  | either left right | both left right => exact ⟨Every.mono more every.1, Every.mono more every.2⟩
  | filter list rhs condition =>
    exact ⟨Every.mono more every.1, Every.mono more every.2.1, Every.mono more every.2.2⟩
  | current | field _ | index _ | slice _ _ _ => trivial

theorem EveryOf.mono (more : ∀ share, P share → Q share) {es : List Expr} (every : EveryOf P es) :
    EveryOf Q es := by
  cases es with
  | nil => trivial
  | cons e rest => exact ⟨Every.mono more every.1, EveryOf.mono more every.2⟩

theorem EveryMember.mono (more : ∀ share, P share → Q share) {members : List (String × Expr)}
    (every : EveryMember P members) : EveryMember Q members := by
  cases members with
  | nil => trivial
  | cons member rest => exact ⟨Every.mono more every.1, EveryMember.mono more every.2⟩

end

mutual

theorem Every.both {e : Expr} (one : e.Every P) (other : e.Every Q) :
    e.Every fun share => P share ∧ Q share := by
  cases e with
  | literal value => exact Value.Every.both one other
  | chain steps | listOf elements | call function arguments => exact EveryOf.both one other
  | objectOf members => exact EveryMember.both one other
  | flatten inner | negate inner | quotation inner => exact Every.both (e := inner) one other
  | pipe left right | each left right | eachValue left right | compare _ left right
  | either left right | both left right => exact ⟨Every.both one.1 other.1, Every.both one.2 other.2⟩
  | filter list rhs condition =>
    exact ⟨Every.both one.1 other.1, Every.both one.2.1 other.2.1, Every.both one.2.2 other.2.2⟩
  | current | field _ | index _ | slice _ _ _ => trivial

theorem EveryOf.both {es : List Expr} (one : EveryOf P es) (other : EveryOf Q es) :
    EveryOf (fun share => P share ∧ Q share) es := by
  cases es with
  | nil => trivial
  | cons e rest => exact ⟨Every.both one.1 other.1, EveryOf.both one.2 other.2⟩

theorem EveryMember.both {members : List (String × Expr)} (one : EveryMember P members)
    (other : EveryMember Q members) : EveryMember (fun share => P share ∧ Q share) members := by
  cases members with
  | nil => trivial
  | cons member rest => exact ⟨Every.both one.1 other.1, EveryMember.both one.2 other.2⟩

end

end Path.Expr

/-! ## What a relocation moves -/

/-- Where the places of one store are found in another, for work that keeps less than `limit` of
them. -/
structure Relocation where
  place : Share → Share
  injective : Function.Injective place
  limit : Nat

namespace Relocation

variable (m : Relocation) {v w : Datum}

/-- The datum with every share where the relocation puts it. -/
def moved (v : Datum) : Datum := v.bind fun share => .shared (m.place share)

/-- The entry, moved. -/
def movedEntry (entry : Datum × Datum) : Datum × Datum := (m.moved entry.1, m.moved entry.2)

/-- The member, moved. -/
def movedField (entry : String × Datum) : String × Datum := (entry.1, m.moved entry.2)

/-- What is kept at a place, moved. A query is kept as it is. -/
def movedCell : Cell → Cell
  | .data content => .data (m.moved content)
  | .query asked => .query asked

@[simp] theorem moved_null : m.moved .null = .null := rfl
@[simp] theorem moved_bool (b : Bool) : m.moved (.bool b) = .bool b := rfl
@[simp] theorem moved_int (n : Int) : m.moved (.int n) = .int n := rfl
@[simp] theorem moved_float (x : Float) : m.moved (.float x) = .float x := rfl
@[simp] theorem moved_str (s : String) : m.moved (.str s) = .str s := rfl
@[simp] theorem moved_shared (share : Share) : m.moved (.shared share) = .shared (m.place share) := rfl

@[simp]
theorem moved_list (items : List Datum) : m.moved (.list items) = .list (items.map m.moved) := by
  rw [moved, Value.bind, Value.bindItems_eq_map]
  rfl

@[simp]
theorem moved_object (fields : List (String × Datum)) :
    m.moved (.object fields) = .object (fields.map m.movedField) := by
  rw [moved, Value.bind, Value.bindFields_eq_map]
  rfl

@[simp]
theorem moved_table (entries : List (Datum × Datum)) :
    m.moved (.table entries) = .table (entries.map m.movedEntry) := by
  rw [moved, Value.bind, Value.bindEntries_eq_map]
  rfl

/-- What holds only shares that stay is not moved. -/
theorem moved_eq_self (fixed : v.Every fun share => m.place share = share) : m.moved v = v :=
  (Value.bind_congr (fixed.mono fun _ same => congrArg Value.shared same)).trans (Value.bind_shared v)

theorem every_of_moved_eq_self (same : m.moved v = v) : v.Every fun share => m.place share = share :=
  Value.every_of_bind_self same

theorem moved_congr {m n : Relocation} (same : v.Every fun share => m.place share = n.place share) :
    m.moved v = n.moved v :=
  Value.bind_congr (same.mono fun _ => congrArg Value.shared)

/-! ## Keys and entries -/

@[simp]
theorem place_beq (a b : Share) : (m.place a == m.place b) = (a == b) := by
  rw [Bool.eq_iff_iff, beq_iff_eq, beq_iff_eq]
  exact m.injective.eq_iff

theorem identical_moved (v w : Datum) :
    Value.identical (m.moved v) (m.moved w) = Value.identical v w := by
  cases v <;> cases w <;> simp [Value.identical]

@[simp]
theorem num?_moved (v : Datum) : (m.moved v).num? = v.num? := by cases v <;> simp [Value.num?]

theorem sameScalar_moved (v w : Datum) :
    Value.sameScalar (m.moved v) (m.moved w) = Value.sameScalar v w := by
  cases v <;> cases w <;> simp [Value.sameScalar, Value.countsAs?, Value.num?]

private theorem sameKey_moved (v w : Datum) :
    Value.sameKey (m.moved v) (m.moved w) = Value.sameKey v w := by
  simp only [Value.sameKey, identical_moved, sameScalar_moved]

theorem isText_moved (text : String) (v : Datum) :
    Value.isText text (m.moved v) = Value.isText text v := by
  cases v <;> simp [Value.isText]

private theorem isContainer_moved (v : Datum) : (m.moved v).isContainer = v.isContainer := by
  cases v <;> simp [Value.isContainer]

theorem get?_moved (fields : Keyed Datum) (key : String) :
    Keyed.get? (fields.map m.movedField) key = (Keyed.get? fields key).map m.moved := by
  induction fields with
  | nil => rfl
  | cons entry rest ih =>
    simp only [List.map_cons, movedField, Keyed.get?]
    split
    · rfl
    · exact ih

theorem put_moved (fields : Keyed Datum) (key : String) (v : Datum) :
    Keyed.put (fields.map m.movedField) key (m.moved v) = (Keyed.put fields key v).map m.movedField := by
  induction fields with
  | nil => rfl
  | cons entry rest ih =>
    simp only [List.map_cons, movedField, Keyed.put]
    split
    · rfl
    · exact congrArg (m.movedField entry :: ·) ih

private theorem merge_moved (fields more : Keyed Datum) :
    Keyed.merge (fields.map m.movedField) (more.map m.movedField) =
      (Keyed.merge fields more).map m.movedField := by
  unfold Keyed.merge
  induction more generalizing fields with
  | nil => rfl
  | cons entry rest ih =>
    rw [List.map_cons, List.foldl_cons, List.foldl_cons, ← ih]
    exact congrArg (fun start => List.foldl _ start _) (m.put_moved fields entry.1 entry.2)

theorem ofList_moved (fields : List (String × Datum)) :
    Keyed.ofList (fields.map m.movedField) = (Keyed.ofList fields).map m.movedField :=
  m.merge_moved [] fields

theorem find?_moved {entries : List (Datum × Datum)} {test test' : Datum × Datum → Bool}
    (same : ∀ entry, test' (m.movedEntry entry) = test entry) :
    (entries.map m.movedEntry).find? test' = (entries.find? test).map m.movedEntry := by
  rw [List.find?_map]
  exact congrArg (Option.map m.movedEntry) (congrArg (List.find? · entries) (funext same))

theorem member?_moved (v : Datum) (key : String) :
    (m.moved v).member? key = (v.member? key).map m.moved := by
  cases v with
  | object fields => simpa using m.get?_moved fields key
  | table entries =>
    simp only [moved_table, Value.member?]
    rw [m.find?_moved (fun entry => m.isText_moved key entry.1), Option.map_map, Option.map_map]
    rfl
  | _ => rfl

theorem entries?_moved (v : Datum) : (m.moved v).entries? = v.entries?.map (List.map m.movedEntry) := by
  cases v with
  | object fields => simp [Value.entries?, movedField, movedEntry, Function.comp_def]
  | table entries => simp [Value.entries?]
  | _ => rfl

private theorem putEntry_moved (entries : List (Datum × Datum)) (key v : Datum) :
    Value.putEntry (entries.map m.movedEntry) (m.moved key) (m.moved v) =
      (Value.putEntry entries key v).map m.movedEntry := by
  induction entries with
  | nil => rfl
  | cons entry rest ih =>
    simp only [List.map_cons, movedEntry, Value.putEntry, sameKey_moved]
    split
    · rfl
    · exact congrArg (m.movedEntry entry :: ·) ih

private theorem textFields?_moved (entries : List (Datum × Datum)) :
    Value.textFields? (entries.map m.movedEntry) =
      (Value.textFields? entries).map (List.map m.movedField) := by
  induction entries with
  | nil => rfl
  | cons entry rest ih =>
    obtain ⟨key, v⟩ := entry
    cases key with
    | str text =>
      simp only [List.map_cons, movedEntry, moved_str, Value.textFields?]
      rw [ih, Option.map_map, Option.map_map]
      rfl
    | _ => simp [movedEntry, Value.textFields?]

private theorem foldl_putEntry_moved (entries done : List (Datum × Datum)) :
    (entries.map m.movedEntry).foldl (fun done entry => Value.putEntry done entry.1 entry.2)
        (done.map m.movedEntry) =
      (entries.foldl (fun done entry => Value.putEntry done entry.1 entry.2) done).map m.movedEntry := by
  induction entries generalizing done with
  | nil => rfl
  | cons entry rest ih =>
    rw [List.map_cons, List.foldl_cons, List.foldl_cons, ← ih]
    exact congrArg (fun start => List.foldl _ start _) (m.putEntry_moved done entry.1 entry.2)

theorem ofEntries_moved (entries : List (Datum × Datum)) :
    Value.ofEntries (entries.map m.movedEntry) = m.moved (Value.ofEntries entries) := by
  have stored := m.foldl_putEntry_moved entries []
  rw [List.map_nil] at stored
  unfold Value.ofEntries
  simp only [stored, textFields?_moved]
  cases Value.textFields?
    (entries.foldl (fun done entry => Value.putEntry done entry.1 entry.2) []) <;> simp

/-- All that the expression writes out stays. -/
def Leaves (asked : Path.Expr) : Prop := asked.Every fun share => m.place share = share

/-! ## Two stores -/

/-- What the first store keeps, the second keeps where the relocation puts it; and so it is with
what they will keep, up to the limit. Queries that are kept hold only what stays. -/
structure Fits (s t : Store) : Prop where
  cells : ∀ share, t.cell? (m.place share) = (s.cell? share).map m.movedCell
  queries : ∀ share asked, s.cell? share = some (.query asked) → m.Leaves asked
  new : ∀ k, s.cells.size + k < m.limit → m.place ⟨s.cells.size + k⟩ = ⟨t.cells.size + k⟩

variable {m} {s t : Store}

theorem Fits.opened (fits : m.Fits s t) (v : Datum) : t.opened (m.moved v) = m.moved (s.opened v) := by
  cases v with
  | shared share =>
    simp only [moved_shared, Store.opened, fits.cells]
    cases s.cell? share with
    | none => rfl
    | some c => cases c <;> rfl
  | _ => simp [Store.opened]

theorem Fits.treeTo (fits : m.Fits s t) (depth : Nat) (v : Datum) :
    t.treeTo depth (m.moved v) = s.treeTo depth v := by
  induction depth generalizing v with
  | zero =>
    unfold Store.treeTo moved
    exact Value.bind?_bind _ _ v
  | succ depth ih =>
    unfold Store.treeTo
    rw [moved, Value.bind?_bind]
    refine congrArg (Value.bind? · v) (funext fun share => ?_)
    simp only [Value.bind?, fits.cells]
    cases s.cell? share with
    | none => rfl
    | some c =>
      cases c with
      | data content => exact ih content
      | query asked => rfl

theorem Fits.entry (fits : m.Fits s t) (element : Datum) :
    Value.entry t.opened (m.moved element) = (Value.entry s.opened element).map m.movedEntry := by
  unfold Value.entry
  rw [fits.opened]
  cases s.opened element with
  | list items =>
    match items with
    | [] => rfl
    | [_] => rfl
    | [key, v] =>
      simp only [moved_list, List.map_cons, List.map_nil, fits.opened, isContainer_moved]
      split <;> rfl
    | _ :: _ :: _ :: _ => simp [Except.map]
  | object fields =>
    match fields with
    | [] => rfl
    | [_] => rfl
    | [(_, _), (_, _)] => rfl
    | _ :: _ :: _ :: _ => simp [Except.map]
  | table entries =>
    match entries with
    | [] => rfl
    | [_] => rfl
    | [(_, _), (_, _)] => rfl
    | _ :: _ :: _ :: _ => simp [Except.map]
  | str text =>
    simp only [moved_str]
    split <;> rfl
  | _ => rfl

private theorem mapM_map_of_map {α β γ δ ε : Type} {f : α → β} {g : γ → δ} {step : α → Except ε γ}
    {step' : β → Except ε δ} (same : ∀ a, step' (f a) = (step a).map g) (items : List α) :
    (items.map f).mapM step' = (items.mapM step).map (List.map g) := by
  induction items with
  | nil => rfl
  | cons a rest ih =>
    rw [List.map_cons, List.mapM_cons, List.mapM_cons, same, ih]
    cases step a with
    | error e => rfl
    | ok c => cases rest.mapM step <;> rfl

theorem Fits.entries (fits : m.Fits s t) (v : Datum) :
    Value.entries t.opened (m.moved v) = (Value.entries s.opened v).map (List.map m.movedEntry) := by
  unfold Value.entries
  rw [fits.opened]
  cases s.opened v with
  | list items =>
    rw [moved_list]
    exact mapM_map_of_map fits.entry items
  | str text =>
    simp only [moved_str]
    split <;> rfl
  | object fields =>
    have same := m.entries?_moved (.object fields)
    rw [moved_object] at same ⊢
    dsimp only
    rw [same]
    cases (Value.object fields).entries? <;> rfl
  | table entries =>
    have same := m.entries?_moved (.table entries)
    rw [moved_table] at same ⊢
    dsimp only
    rw [same]
    cases (Value.table entries).entries? <;> rfl
  | _ => rfl

/-! ## Comparing -/

private theorem allPairs?_map {α β : Type} {f : α → β} {test : α → α → Option Bool}
    {test' : β → β → Option Bool} (same : ∀ x y, test' (f x) (f y) = test x y) (xs ys : List α) :
    Store.allPairs? test' (xs.map f) (ys.map f) = Store.allPairs? test xs ys := by
  induction xs generalizing ys with
  | nil => cases ys <;> rfl
  | cons x xs ih =>
    cases ys with
    | nil => rfl
    | cons y ys =>
      simp only [List.map_cons, Store.allPairs?, same, ih]

private theorem allMembers?_moved {test test' : Datum → Datum → Option Bool}
    (same : ∀ x y, test' (m.moved x) (m.moved y) = test x y) (ys xs : List (String × Datum)) :
    Store.allMembers? test' (ys.map m.movedField) (xs.map m.movedField) =
      Store.allMembers? test ys xs := by
  induction xs with
  | nil => rfl
  | cons entry xs ih =>
    obtain ⟨key, x⟩ := entry
    simp only [List.map_cons, Store.allMembers?]
    rw [show (m.movedField (key, x)).1 = key from rfl, get?_moved, ih]
    cases Keyed.get? ys key with
    | none => rfl
    | some y => simp only [Option.map_some, movedField, same]

private theorem allEntries?_moved {test test' : Datum → Datum → Option Bool}
    (same : ∀ x y, test' (m.moved x) (m.moved y) = test x y) (ys xs : List (Datum × Datum)) :
    Store.allEntries? test' (ys.map m.movedEntry) (xs.map m.movedEntry) =
      Store.allEntries? test ys xs := by
  induction xs with
  | nil => rfl
  | cons entry xs ih =>
    obtain ⟨key, x⟩ := entry
    have found : (ys.map m.movedEntry).find? (fun entry => Value.sameKey entry.1 (m.moved key)) =
        (ys.find? fun entry => Value.sameKey entry.1 key).map m.movedEntry :=
      m.find?_moved fun entry => m.sameKey_moved entry.1 key
    simp only [List.map_cons, Store.allEntries?]
    rw [show (m.movedEntry (key, x)).1 = m.moved key from rfl, found, ih]
    cases ys.find? fun entry => Value.sameKey entry.1 key with
    | none => rfl
    | some y => simp only [Option.map_some, movedEntry, same]

theorem Fits.sameTo (fits : m.Fits s t) (depth : Nat) (a b : Datum) :
    t.sameTo depth (m.moved a) (m.moved b) = s.sameTo depth a b := by
  induction depth generalizing a b with
  | zero => rfl
  | succ depth ih =>
    let inside (s : Store) (x y : Datum) := if Value.identical x y then some true else s.sameTo depth x y
    have alike : ∀ x y, inside t (m.moved x) (m.moved y) = inside s x y := by
      intro x y
      simp only [inside]
      rw [m.identical_moved, ih]
    have scalar : ∀ x y, Value.sameScalar (m.moved x) (m.moved y) = Value.sameScalar x y :=
      m.sameScalar_moved
    unfold Store.sameTo
    simp only [fits.opened]
    cases s.opened a <;> cases s.opened b <;>
      simp only [moved_list, moved_object, moved_table, moved_shared, List.length_map, place_beq]
    all_goals first
      | exact congrArg some (scalar _ _)
      | exact congrArg (ite _ · _) (allPairs?_map alike _ _)
      | exact congrArg (ite _ · _) (allMembers?_moved alike _ _)
      | exact congrArg (ite _ · _) (allEntries?_moved alike _ _)
      | rfl

theorem Fits.alike? (fits : m.Fits s t) (a b : Datum) :
    t.alike? (m.moved a) (m.moved b) = s.alike? a b := by
  unfold Store.alike? Store.same?
  rw [m.identical_moved, fits.sameTo]

end Relocation

/-! ## Trees of any depth -/

namespace Store

variable {s : Store} {v : Datum} {depth : Nat}

theorem treeTo_shared (share : Share) : s.treeTo (depth + 1) (.shared share) =
    match s.cell? share with
    | some (.data content) => s.treeTo depth content
    | _ => some .null := rfl

/-- A datum spells out a tree where all its shares do. -/
theorem isSome_treeTo : (s.treeTo depth v).isSome ↔
    v.Every fun share => (s.treeTo depth (.shared share)).isSome := by
  cases depth with
  | zero =>
    unfold treeTo
    exact Value.isSome_bind?
  | succ depth =>
    rw [treeTo, Value.isSome_bind?]
    refine iff_of_eq (congrArg (Value.Every · v) (funext fun share => ?_))
    exact congrArg (fun tree : Option Json => (tree.isSome : Prop)) (treeTo_shared share).symm

/-- The tree at a depth is that at every greater one. -/
theorem treeTo_succ {tree : Json} (spelled : s.treeTo depth v = some tree) :
    s.treeTo (depth + 1) v = some tree := by
  induction depth generalizing v tree with
  | zero =>
    have none : v.Every fun _ => False := by
      have every := isSome_treeTo.mp (Option.isSome_of_eq_some spelled)
      exact every.mono fun share some => by simp [treeTo, Value.bind?] at some
    rw [← spelled, treeTo, treeTo]
    exact Value.bind?_congr (none.mono fun _ => False.elim)
  | succ depth ih =>
    have every := isSome_treeTo.mp (Option.isSome_of_eq_some spelled)
    rw [← spelled, treeTo, treeTo]
    refine Value.bind?_congr (every.mono fun share some => ?_)
    rw [treeTo_shared] at some
    cases found : s.cell? share with
    | none => rfl
    | some c =>
      cases c with
      | query asked => rfl
      | data content =>
        rw [found] at some
        obtain ⟨inner, spelled⟩ := Option.isSome_iff_exists.mp some
        exact (ih spelled).trans spelled.symm

private theorem treeTo_of_le {deeper : Nat} {tree : Json} (more : depth ≤ deeper)
    (spelled : s.treeTo depth v = some tree) :
    s.treeTo deeper v = some tree := by
  induction more with
  | refl => exact spelled
  | step _ ih => exact treeTo_succ ih

/-- The least depth at which a place spells out a tree. -/
def Height (s : Store) (share : Share) (height : Nat) : Prop :=
  (s.treeTo height (.shared share)).isSome ∧ ∀ less < height, (s.treeTo less (.shared share)) = none

private theorem exists_height {share : Share} (spelled : (s.treeTo depth (.shared share)).isSome) :
    ∃ height, s.Height share height := by
  classical
  have some : ∃ depth, (s.treeTo depth (.shared share)).isSome := ⟨depth, spelled⟩
  refine ⟨Nat.find some, Nat.find_spec some, fun less below => ?_⟩
  exact Option.not_isSome_iff_eq_none.mp (Nat.find_min some below)

theorem Height.unique {share : Share} {height other : Nat} (here : s.Height share height)
    (there : s.Height share other) : height = other := by
  have le : ∀ {a b}, s.Height share a → s.Height share b → a ≤ b := by
    intro a b first second
    by_contra less
    have spelled := second.1
    rw [first.2 b (Nat.lt_of_not_le less)] at spelled
    cases spelled
  exact Nat.le_antisymm (le here there) (le there here)

/-- Below a place of some height there are places of all lesser heights, and all but the lowest hold
something. -/
theorem exists_descent {share : Share} {height : Nat} (high : s.Height share height) :
    ∃ descent : List Share, descent.length + 1 = height ∧
      descent.Pairwise (fun a b => ∃ i j, s.Height a i ∧ s.Height b j ∧ j < i) ∧
      (∀ a ∈ descent, (∃ c, s.cell? a = some c) ∧ ∃ i ≤ height, s.Height a i) := by
  induction height generalizing share with
  | zero =>
    have spelled := high.1
    simp [treeTo, Value.bind?] at spelled
  | succ height ih =>
    cases height with
    | zero => exact ⟨[], rfl, .nil, nofun⟩
    | succ below =>
      have spelled := high.1
      have missing := high.2 (below + 1) (Nat.lt_succ_self _)
      rw [treeTo_shared] at spelled missing
      split at spelled
      · next content found =>
        simp only [found] at missing
        -- Some share of the content is exactly one lower: else all of them, and so the content,
        -- would be lower still.
        obtain ⟨lower, exact⟩ : ∃ lower, s.Height lower (below + 1) := by
          by_contra no
          have every : content.Every fun share => (s.treeTo below (.shared share)).isSome := by
            refine (isSome_treeTo.mp spelled).mono fun inner some => ?_
            obtain ⟨height, high⟩ := exists_height some
            obtain ⟨tree, spelt⟩ := Option.isSome_iff_exists.mp high.1
            have le : height ≤ below + 1 := by
              by_contra more
              have none := high.2 (below + 1) (Nat.lt_of_not_le more)
              rw [none] at some
              cases some
            rcases Nat.lt_or_eq_of_le le with less | rfl
            · exact Option.isSome_of_eq_some (treeTo_of_le (Nat.le_of_lt_succ less) spelt)
            · exact absurd ⟨inner, high⟩ no
          have again := isSome_treeTo.mpr every
          rw [missing] at again
          cases again
        obtain ⟨descent, length, falling, inside⟩ := ih exact
        refine ⟨share :: descent, by simp [length],
          List.pairwise_cons.mpr ⟨fun a member => ?_, falling⟩, ?_⟩
        · obtain ⟨_, i, le, high'⟩ := inside a member
          exact ⟨_, i, high, high', Nat.lt_succ_of_le le⟩
        · intro a member
          rcases List.mem_cons.mp member with rfl | later
          · exact ⟨⟨_, found⟩, _, Nat.le_refl _, high⟩
          · obtain ⟨there, i, le, high'⟩ := inside a later
            exact ⟨there, i, Nat.le_succ_of_le le, high'⟩
      · next other =>
        split at missing
        · next content found => exact absurd found (other content)
        · cases missing

/-- No tree needs more depth than there are places, and one more. -/
theorem tree?_of_treeTo {tree : Json} (spelled : s.treeTo depth v = some tree) :
    s.tree? v = some tree := by
  have low : v.Every fun share => (s.treeTo (s.cells.size + 1) (.shared share)).isSome := by
    refine (isSome_treeTo.mp (Option.isSome_of_eq_some spelled)).mono fun share some => ?_
    obtain ⟨height, high⟩ := exists_height some
    obtain ⟨descent, length, falling, inside⟩ := exists_descent high
    obtain ⟨inner, spelt⟩ := Option.isSome_iff_exists.mp high.1
    refine Option.isSome_of_eq_some (treeTo_of_le ?_ spelt)
    have distinct : (descent.map Share.cell).Nodup := by
      refine List.Nodup.map (fun a b same => by cases a; cases b; exact congrArg Share.mk same) ?_
      refine falling.imp fun {a b} ⟨i, j, first, second, less⟩ same => ?_
      subst same
      exact absurd (first.unique second) (Nat.ne_of_gt less)
    have few : (descent.map Share.cell).length ≤ (List.range s.cells.size).length := by
      refine (distinct.subperm fun i member => ?_).length_le
      obtain ⟨a, listed, rfl⟩ := List.mem_map.mp member
      obtain ⟨⟨c, found⟩, _⟩ := inside a listed
      exact List.mem_range.mpr (lt_size_of_cell? found)
    rw [List.length_map, List.length_range] at few
    omega
  obtain ⟨found, whole⟩ := Option.isSome_iff_exists.mp (isSome_treeTo.mpr low)
  rcases Nat.le_total depth (s.cells.size + 1) with less | more
  · exact treeTo_of_le less spelled
  · rw [tree?, whole, ← spelled, treeTo_of_le more whole]

end Store

/-- What is moved spells out the same tree, if any. -/
theorem Relocation.Fits.tree? {m : Relocation} {s t : Store} (fits : m.Fits s t) (v : Datum) :
    t.tree? (m.moved v) = s.tree? v := by
  cases found : s.tree? v with
  | some tree =>
    rw [Store.tree?, ← fits.treeTo] at found
    exact Store.tree?_of_treeTo found
  | none =>
    cases spelled : t.tree? (m.moved v) with
    | none => rfl
    | some tree =>
      rw [Store.tree?, fits.treeTo] at spelled
      rw [Store.tree?_of_treeTo spelled] at found
      cases found

end ResourceGraph
