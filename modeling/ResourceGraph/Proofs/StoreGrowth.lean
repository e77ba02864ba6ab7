import ResourceGraph.Path.Search
import ResourceGraph.Proofs.Running
import ResourceGraph.Proofs.Wiring
import ResourceGraph.Store.Write

/-!
What work on a store leaves of it. To keep containers, or to copy them, only adds to the store:
every container that was there stays as it is, so that who holds one sees no change. To write into
parameters changes containers, but no expression. Expressions are kept under texts that can be read,
and no others.
-/

namespace ResourceGraph

namespace Store

/-- The second store has everything that the first one has, at its place, and no other expressions. -/
structure Adds (s t : Store) : Prop where
  cells : ∀ (i : Nat) c, s.cells[i]? = some c → t.cells[i]? = some c
  expressions : t.expressions = s.expressions

/-- The second store has everything that the first one has, at its place. -/
def Grows (s t : Store) : Prop := ∀ (i : Nat) c, s.cells[i]? = some c → t.cells[i]? = some c

/-- The text reads as the expression, but that the containers are kept which it writes out. -/
def ReadsAs (text : String) (known : Path.Expr) : Prop :=
  ∃ read t, Path.compile text = .ok read ∧ ((shareLiterals read).run t).1 = known

/-- Every expression that is kept was kept before, or is what its text reads as. -/
def Learns (s t : Store) : Prop :=
  ∀ text known, Keyed.get? t.expressions text = some known →
    Keyed.get? s.expressions text = some known ∨ ReadsAs text known

/-- Every expression that is kept is what its text reads as. -/
def WellRead (s : Store) : Prop :=
  ∀ text known, Keyed.get? s.expressions text = some known → ReadsAs text known

theorem adds_lasting : Lasting Adds where
  refl _ := ⟨fun _ _ there => there, rfl⟩
  trans first second := ⟨fun i c there => second.cells i c (first.cells i c there),
    second.expressions.trans first.expressions⟩

theorem grows_lasting : Lasting Grows where
  refl _ _ _ there := there
  trans first second i c there := second i c (first i c there)

theorem learns_lasting : Lasting Learns where
  refl _ _ _ there := .inl there
  trans first second text known there := by
    rcases second text known there with before | reads
    · exact first text known before
    · exact .inr reads

theorem Adds.learns {s t : Store} (adds : Adds s t) : Learns s t := by
  intro text known there
  rw [adds.expressions] at there
  exact .inl there

theorem WellRead.learns {s t : Store} (well : s.WellRead) (learns : Learns s t) : t.WellRead := by
  intro text known there
  rcases learns text known there with before | reads
  · exact well text known before
  · exact reads

/-- Nothing is kept under a text that cannot be read. -/
theorem WellRead.unread {s : Store} (well : s.WellRead) {text : String} {f : Failure}
    (unread : Path.compile text = .error f) : Keyed.get? s.expressions text = none := by
  cases kept : Keyed.get? s.expressions text with
  | none => rfl
  | some known =>
    obtain ⟨read, _, compiled, _⟩ := well text known kept
    rw [unread] at compiled
    cases compiled

/-! ## Keeping containers -/

theorem keepCell_adds (cell : Cell) : Steady Adds (keepCell cell) := by
  intro s
  refine ⟨fun i c there => ?_, rfl⟩
  obtain ⟨inside, _⟩ := Array.getElem?_eq_some_iff.mp there
  change (s.cells.push cell)[i]? = some c
  rw [Array.getElem?_push, if_neg (by omega)]
  exact there

theorem keep_adds (content : Datum) : Steady Adds (keep content) := keepCell_adds _

mutual

theorem share_adds (v : Datum) : Steady Adds (share v) := by
  cases v with
  | list items => exact .bind adds_lasting (shareItems_adds items) fun _ => keep_adds _
  | object fields => exact .bind adds_lasting (shareFields_adds fields) fun _ => keep_adds _
  | table entries => exact .bind adds_lasting (shareEntries_adds entries) fun _ => keep_adds _
  | _ => exact .pure adds_lasting _

theorem shareItems_adds (items : List Datum) : Steady Adds (shareItems items) := by
  cases items with
  | nil => exact .pure adds_lasting _
  | cons v rest =>
    exact .bind adds_lasting (share_adds v) fun _ =>
      .bind adds_lasting (shareItems_adds rest) fun _ => .pure adds_lasting _

theorem shareFields_adds (fields : List (String × Datum)) : Steady Adds (shareFields fields) := by
  cases fields with
  | nil => exact .pure adds_lasting _
  | cons entry rest =>
    exact .bind adds_lasting (share_adds entry.2) fun _ =>
      .bind adds_lasting (shareFields_adds rest) fun _ => .pure adds_lasting _

theorem shareEntries_adds (entries : List (Datum × Datum)) : Steady Adds (shareEntries entries) := by
  cases entries with
  | nil => exact .pure adds_lasting _
  | cons entry rest =>
    exact .bind adds_lasting (share_adds entry.2) fun _ =>
      .bind adds_lasting (shareEntries_adds rest) fun _ => .pure adds_lasting _

end

theorem shareInside_adds (content : Datum) : Steady Adds (shareInside content) := by
  cases content with
  | list items => exact .bind adds_lasting (shareItems_adds items) fun _ => .pure adds_lasting _
  | object fields => exact .bind adds_lasting (shareFields_adds fields) fun _ => .pure adds_lasting _
  | table entries =>
    exact .bind adds_lasting (shareEntries_adds entries) fun _ => .pure adds_lasting _
  | _ => exact .pure adds_lasting _

/-- The cells of a copy are new, and those that were copied stay. -/
theorem copy_adds (v : Datum) : Steady Adds (copy v) := by
  intro s
  refine ⟨fun i c there => ?_, rfl⟩
  obtain ⟨inside, _⟩ := Array.getElem?_eq_some_iff.mp there
  exact (Array.getElem?_append_left inside).trans there

mutual

theorem shareLiterals_adds (e : Path.Expr) : Steady Adds (shareLiterals e) := by
  cases e with
  | literal value => exact .bind adds_lasting (share_adds value) fun _ => .pure adds_lasting _
  | chain steps => exact .bind adds_lasting (shareAll_adds steps) fun _ => .pure adds_lasting _
  | listOf elements => exact .bind adds_lasting (shareAll_adds elements) fun _ => .pure adds_lasting _
  | objectOf members =>
    exact .bind adds_lasting (shareMembers_adds members) fun _ => .pure adds_lasting _
  | call function arguments =>
    exact .bind adds_lasting (shareAll_adds arguments) fun _ => .pure adds_lasting _
  | flatten inner | negate inner | quotation inner =>
    exact .bind adds_lasting (shareLiterals_adds inner) fun _ => .pure adds_lasting _
  | pipe left right | each left right | eachValue left right | compare _ left right
  | either left right | both left right =>
    exact .bind adds_lasting (shareLiterals_adds left) fun _ =>
      .bind adds_lasting (shareLiterals_adds right) fun _ => .pure adds_lasting _
  | filter list rhs condition =>
    exact .bind adds_lasting (shareLiterals_adds list) fun _ =>
      .bind adds_lasting (shareLiterals_adds rhs) fun _ =>
        .bind adds_lasting (shareLiterals_adds condition) fun _ => .pure adds_lasting _
  | current | field _ | index _ | slice _ _ _ => exact .pure adds_lasting _

theorem shareAll_adds (es : List Path.Expr) : Steady Adds (shareAll es) := by
  cases es with
  | nil => exact .pure adds_lasting _
  | cons e rest =>
    exact .bind adds_lasting (shareLiterals_adds e) fun _ =>
      .bind adds_lasting (shareAll_adds rest) fun _ => .pure adds_lasting _

theorem shareMembers_adds (members : List (String × Path.Expr)) :
    Steady Adds (shareMembers members) := by
  cases members with
  | nil => exact .pure adds_lasting _
  | cons member rest =>
    exact .bind adds_lasting (shareLiterals_adds member.2) fun _ =>
      .bind adds_lasting (shareMembers_adds rest) fun _ => .pure adds_lasting _

end

/-! ## Writing keeps the expressions -/

private theorem replace_learns (share : Share) (content : Datum) :
    Steady Learns (replace share content) :=
  fun _ _ _ found => .inl found

/-- An edit that changes no expression. -/
abbrev Plain (edit : Edit (StateM Store) Share) : Prop := ∀ v, Steady Learns (edit v)

theorem plain_stop (v : Datum) (fault : WriteFault) :
    Steady Learns (Edit.stop v fault : StateM Store (Edited Datum)) := .pure learns_lasting _

theorem plain_reach {edit : Edit (StateM Store) Share} (plain : Plain edit) : Plain (reach edit) := by
  intro v
  cases v with
  | shared share =>
    refine .bind learns_lasting (fun s => learns_lasting.refl s) fun s => ?_
    split
    · next content _ =>
      refine .bind learns_lasting (plain content) fun edited => ?_
      refine .bind learns_lasting (fun s => (shareInside_adds _ s).learns) fun inside => ?_
      exact .bind learns_lasting (replace_learns share inside) fun _ => .pure learns_lasting _
    · exact plain _
  | _ => exact plain _

private theorem plain_underKey {key : String} {fresh : Datum} {edit : Edit (StateM Store) Share}
    (plain : Plain edit) (fields : List (String × Datum)) :
    Steady Learns (Edit.underKey key fresh edit fields) :=
  .bind learns_lasting (plain _) fun _ => .pure learns_lasting _

private theorem plain_putMember (key : String) (value : Datum) :
    Plain (Edit.putMember reach key value) := by
  refine plain_reach fun v => ?_
  cases v with
  | object _ | table _ => exact .pure learns_lasting _
  | _ => exact plain_stop _ _

private theorem plain_addElement (value : Datum) : Plain (Edit.addElement reach value) := by
  refine plain_reach fun v => ?_
  cases v with
  | list _ => exact .pure learns_lasting _
  | _ => exact plain_stop _ _

private theorem plain_listMember {key : String} {edit : Edit (StateM Store) Share} (plain : Plain edit) :
    Plain (Edit.listMember reach key edit) := by
  refine plain_reach fun v => ?_
  cases v with
  | object fields =>
    exact .bind learns_lasting (plain_underKey plain fields) fun _ => .pure learns_lasting _
  | table entries => exact .bind learns_lasting (plain _) fun _ => .pure learns_lasting _
  | _ => exact plain_stop _ _

private theorem plain_atPlace {place : Nat} {edit : Edit (StateM Store) Share} (plain : Plain edit) :
    Plain (Edit.atPlace reach place edit) := by
  refine plain_reach fun v => ?_
  cases v with
  | list items => exact .bind learns_lasting (plain _) fun _ => .pure learns_lasting _
  | object fields => exact plain_stop _ _
  | table entries =>
    dsimp only
    split
    · exact plain_stop _ _
    · split
      · exact plain_stop _ _
      · exact .bind learns_lasting (plain _) fun _ => .pure learns_lasting _
  | str s =>
    dsimp only
    split
    · exact plain_stop _ _
    · exact .bind learns_lasting (plain _) fun _ => .pure learns_lasting _
  | _ => exact plain_stop _ _

theorem write_learns (address : Address) (value : Datum) (params : List (String × Datum)) :
    Steady Learns (write address value params) := by
  cases address with
  | key name => exact .pure learns_lasting _
  | member name inner => exact plain_underKey (plain_putMember inner value) params
  | append name => exact plain_underKey (plain_addElement value) params
  | elementMember name place inner =>
    exact plain_underKey (plain_atPlace (plain_putMember inner value)) params
  | elementAppend name place inner =>
    exact plain_underKey (plain_atPlace (plain_listMember (plain_addElement value))) params

/-! ## Keeping what has its place already -/

theorem share_bare {v : Datum} (bare : v.isContainer = false) : share v = pure v := by
  cases v <;> first | rfl | cases bare

theorem shareItems_shallow {items : List Datum} (shallow : ∀ v ∈ items, v.isContainer = false) :
    shareItems items = pure items := by
  induction items with
  | nil => rfl
  | cons v rest ih =>
    rw [List.forall_mem_cons] at shallow
    rw [shareItems, share_bare shallow.1, ih shallow.2]
    rfl

theorem shareFields_shallow {fields : List (String × Datum)}
    (shallow : ∀ entry ∈ fields, entry.2.isContainer = false) : shareFields fields = pure fields := by
  induction fields with
  | nil => rfl
  | cons entry rest ih =>
    rw [List.forall_mem_cons] at shallow
    rw [shareFields, share_bare shallow.1, ih shallow.2]
    rfl

theorem shareEntries_shallow {entries : List (Datum × Datum)}
    (shallow : ∀ entry ∈ entries, entry.2.isContainer = false) :
    shareEntries entries = pure entries := by
  induction entries with
  | nil => rfl
  | cons entry rest ih =>
    rw [List.forall_mem_cons] at shallow
    rw [shareEntries, share_bare shallow.1, ih shallow.2]
    rfl

end Store

end ResourceGraph
