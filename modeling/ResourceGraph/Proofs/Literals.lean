import ResourceGraph.Path.Search
import ResourceGraph.Proofs.Relocation

/-!
What expressions write out. An expression is read from a text, so that the containers written out in
it are trees of its own and shared with nothing; when it is read they are kept at new places, which
hold nothing else.
-/

namespace ResourceGraph

namespace Path

variable {P : Share → Prop}

/-! ## Reading -/

/-- What is read, if anything, writes out nothing but what has the property. -/
def Spells (P : Share → Prop) (reading : Reading) : Prop := ∀ e rest, reading = .ok (e, rest) → e.Every P

namespace Spells

theorem ok {e : Expr} {rest : List Token} (every : e.Every P) : Spells P (.ok (e, rest)) := by
  rintro _ _ ⟨⟩
  exact every

theorem error (fault : TextFault) : Spells P (.error fault) := nofun

theorem bind {reading : Reading} {next : Expr × List Token → Reading} (first : Spells P reading)
    (rest : ∀ e more, e.Every P → Spells P (next (e, more))) : Spells P (reading >>= next) := by
  cases read : reading with
  | error fault => exact error fault
  | ok found => exact rest found.1 found.2 (first found.1 found.2 read)

private theorem after {α : Type} {reading : Except TextFault α} {next : α → Reading}
    (rest : ∀ a, Spells P (next a)) : Spells P (reading >>= next) := by
  cases reading with
  | error fault => exact error fault
  | ok a => exact rest a

end Spells

theorem Expr.every_followedBy {first next : Expr} (one : first.Every P) (other : next.Every P) :
    (first.followedBy next).Every P := by
  unfold followedBy
  split
  · next steps =>
    refine everyOf_iff.mpr fun e member => ?_
    rcases List.mem_append.mp member with before | last
    · exact everyOf_iff.mp one e before
    · exact List.mem_singleton.mp last ▸ other
  · exact ⟨one, other, trivial⟩

theorem Expr.everyOf_reverse {es : List Expr} (every : ∀ e ∈ es, e.Every P) : EveryOf P es.reverse :=
  everyOf_iff.mpr fun e member => every e (List.mem_reverse.mp member)

/-- All readers with so much fuel spell what has the property, if what they are given does. -/
structure Readers (P : Share → Prop) (fuel : Nat) : Prop where
  expr : ∀ room floor tokens, Spells P (readExpr fuel room floor tokens)
  more : ∀ room floor left tokens, left.Every P → Spells P (readMore fuel room floor left tokens)
  start : ∀ room tokens, Spells P (readStart fuel room tokens)
  operator : ∀ room left token rest, left.Every P → Spells P (readOperator fuel room left token rest)
  place : ∀ room left tokens, left.Every P → Spells P (readPlace fuel room left tokens)
  filter : ∀ room left tokens, left.Every P → Spells P (readFilter fuel room left tokens)
  projected : ∀ room floor tokens, Spells P (readProjected fuel room floor tokens)
  member : ∀ room floor tokens, Spells P (readMember fuel room floor tokens)
  elements : ∀ room done tokens, (∀ e ∈ done, e.Every P) → Spells P (readElements fuel room done tokens)
  members : ∀ room done tokens, (∀ member ∈ done, member.2.Every P) →
    Spells P (readMembers fuel room done tokens)
  arguments : ∀ room done tokens, (∀ e ∈ done, e.Every P) → ∀ es rest,
    readArguments fuel room done tokens = .ok (es, rest) → ∀ e ∈ es, e.Every P

section Step

variable {fuel : Nat} (readers : Readers P fuel)
include readers

theorem Readers.startStep (room : Nat) (tokens : List Token) :
    Spells P (readStart (fuel + 1) room tokens) := by
  unfold readStart
  split
  · exact .ok (Value.every_ofJson _)
  · exact .ok trivial
  · exact .error _
  · exact .ok trivial
  · exact .ok ⟨trivial, trivial⟩
  · exact .bind (readers.projected _ _ _) fun rhs more every => .ok ⟨trivial, every⟩
  · exact readers.filter _ _ _ trivial
  · exact readers.members _ _ _ (List.forall_mem_nil _)
  · refine .bind (readers.expr _ _ _) fun inner more every => ?_
    dsimp only
    split
    · exact .ok every
    · exact .error _
  · exact .bind (readers.projected _ _ _) fun rhs more every => .ok ⟨trivial, every⟩
  · exact .bind (readers.expr _ _ _) fun operand more every => .ok every
  · split
    · exact readers.place _ _ _ trivial
    · exact readers.place _ _ _ trivial
    · exact .bind (readers.projected _ _ _) fun rhs more every => .ok ⟨trivial, every⟩
    · exact readers.elements _ _ _ (List.forall_mem_nil _)
  · exact .ok trivial
  · exact .bind (readers.expr _ _ _) fun query more every => .ok every
  · exact .error _

theorem Readers.operatorStep (room : Nat) {left : Expr} (token : Token) (rest : List Token)
    (given : left.Every P) : Spells P (readOperator (fuel + 1) room left token rest) := by
  unfold readOperator
  split
  · split
    · exact .bind (readers.projected _ _ _) fun rhs more every => .ok ⟨given, every⟩
    · exact .bind (readers.member _ _ _) fun right more every => .ok (Expr.every_followedBy given every)
  · exact .bind (readers.expr _ _ _) fun right more every => .ok ⟨given, every⟩
  · exact .bind (readers.expr _ _ _) fun right more every => .ok ⟨given, every⟩
  · exact .bind (readers.expr _ _ _) fun right more every => .ok ⟨given, every⟩
  · exact .bind (readers.expr _ _ _) fun right more every => .ok ⟨given, every⟩
  · exact .bind (readers.projected _ _ _) fun rhs more every => .ok ⟨given, every⟩
  · exact readers.filter _ _ _ given
  · split
    · exact readers.place _ _ _ given
    · exact readers.place _ _ _ given
    · exact .bind (readers.projected _ _ _) fun rhs more every => .ok ⟨given, every⟩
    · exact .error _
  · split
    · next name =>
      cases read : readArguments fuel (room - 1) [] rest with
      | error fault => exact .error fault
      | ok found =>
        have every : ∀ e ∈ found.1, e.Every P :=
          readers.arguments (room - 1) [] rest (List.forall_mem_nil _) found.1 found.2 read
        exact .ok (Expr.everyOf_iff.mpr every)
    · exact .error _
  · exact .error _

theorem Readers.placeStep (room : Nat) {left : Expr} (tokens : List Token) (given : left.Every P) :
    Spells P (readPlace (fuel + 1) room left tokens) := by
  have sliced : ∀ start stop step, (left.followedBy (.slice start stop step)).Every P :=
    fun _ _ _ => Expr.every_followedBy given trivial
  unfold readPlace
  split
  · exact .ok (Expr.every_followedBy given trivial)
  all_goals first
    | exact .error _
    | refine .after fun bounds => ?_
      obtain ⟨⟨start, stop, step⟩, more⟩ := bounds
      dsimp only
      split
      · exact .ok (sliced _ _ _)
      · exact .bind (readers.projected _ _ _) fun rhs after every => .ok ⟨sliced _ _ _, every⟩

theorem Readers.filterStep (room : Nat) {left : Expr} (tokens : List Token) (given : left.Every P) :
    Spells P (readFilter (fuel + 1) room left tokens) := by
  unfold readFilter
  refine .bind (readers.expr _ _ _) fun condition more every => ?_
  dsimp only
  split
  · exact .ok ⟨given, trivial, every⟩
  · exact .bind (readers.projected _ _ _) fun rhs after projected => .ok ⟨given, projected, every⟩
  · exact .error _

theorem Readers.projectedStep (room floor : Nat) (tokens : List Token) :
    Spells P (readProjected (fuel + 1) room floor tokens) := by
  unfold readProjected
  split
  · exact .ok trivial
  · split
    · exact readers.expr _ _ _
    · exact readers.expr _ _ _
    · exact readers.member _ _ _
    · exact .error _

theorem Readers.memberStep (room floor : Nat) (tokens : List Token) :
    Spells P (readMember (fuel + 1) room floor tokens) := by
  unfold readMember
  split
  · exact readers.expr _ _ _
  · exact readers.expr _ _ _
  · exact readers.elements _ _ _ (List.forall_mem_nil _)
  · exact readers.members _ _ _ (List.forall_mem_nil _)
  · exact .error _

theorem Readers.elementsStep (room : Nat) {done : List Expr} (tokens : List Token)
    (given : ∀ e ∈ done, e.Every P) : Spells P (readElements (fuel + 1) room done tokens) := by
  unfold readElements
  refine .bind (readers.expr _ _ _) fun element more every => ?_
  have all : ∀ e ∈ element :: done, e.Every P := List.forall_mem_cons.mpr ⟨every, given⟩
  dsimp only
  split
  · exact .ok (Expr.everyOf_reverse all)
  · exact readers.elements _ _ _ all
  · exact .error _

theorem Readers.membersStep (room : Nat) {done : List (String × Expr)} (tokens : List Token)
    (given : ∀ member ∈ done, member.2.Every P) :
    Spells P (readMembers (fuel + 1) room done tokens) := by
  unfold readMembers
  split
  · next key _ rest =>
    refine .bind (readers.expr _ _ _) fun value more every => ?_
    have all : ∀ member ∈ (key, value) :: done, member.2.Every P :=
      List.forall_mem_cons.mpr ⟨every, given⟩
    dsimp only
    split
    · exact readers.members _ _ _ all
    · exact .ok (Expr.everyMember_iff.mpr fun member listed => all member (List.mem_reverse.mp listed))
    · exact readers.members _ _ _ all
  · exact .error _

theorem Readers.argumentsStep (room : Nat) {done : List Expr} (tokens : List Token)
    (given : ∀ e ∈ done, e.Every P) (es : List Expr) (rest : List Token)
    (read : readArguments (fuel + 1) room done tokens = .ok (es, rest)) : ∀ e ∈ es, e.Every P := by
  unfold readArguments at read
  split at read
  · cases read
    exact fun e member => given e (List.mem_reverse.mp member)
  · cases found : readExpr fuel room 0 tokens with
    | error fault =>
      rw [found] at read
      cases read
    | ok parts =>
      obtain ⟨argument, more⟩ := parts
      have all : ∀ e ∈ argument :: done, e.Every P :=
        List.forall_mem_cons.mpr ⟨readers.expr _ _ _ argument more found, given⟩
      simp only [found, bind, Except.bind] at read
      split at read
      · exact readers.arguments _ _ _ all es rest read
      · exact readers.arguments _ _ _ all es rest read

end Step

private theorem readers (fuel : Nat) : Readers P fuel := by
  induction fuel with
  | zero =>
    have none : Spells P noReading := .error _
    refine ⟨?_, ?_, ?_, ?_, ?_, ?_, ?_, ?_, ?_, ?_, ?_⟩ <;> intros
    all_goals first
      | (unfold readArguments at *; contradiction)
      | (first
          | unfold readExpr | unfold readMore | unfold readStart | unfold readOperator | unfold readPlace
          | unfold readFilter | unfold readProjected | unfold readMember | unfold readElements
          | unfold readMembers
         exact none)
  | succ fuel ih =>
    refine ⟨fun room floor tokens => ?_, fun room floor left tokens given => ?_, ih.startStep,
      fun room left token rest given => ih.operatorStep room token rest given,
      fun room left tokens given => ih.placeStep room tokens given,
      fun room left tokens given => ih.filterStep room tokens given, ih.projectedStep, ih.memberStep,
      fun room done tokens given => ih.elementsStep room tokens given,
      fun room done tokens given => ih.membersStep room tokens given,
      fun room done tokens given => ih.argumentsStep room tokens given⟩
    · unfold readExpr
      split
      · exact .error _
      · exact .bind (ih.start _ _) fun left rest every => ih.more _ _ _ _ every
    · unfold readMore
      split
      · exact .ok given
      · split
        · exact .bind (ih.operator _ _ _ _ given) fun next more every => ih.more _ _ _ _ every
        · exact .ok given

/-- What an expression that was read writes out shares nothing. -/
theorem every_of_compile {text : String} {e : Expr} (compiled : compile text = .ok e) : e.Every P := by
  unfold compile at compiled
  split at compiled
  · next expr read =>
    cases compiled
    unfold Expr.ofText at read
    cases scanned : Token.scan text with
    | error fault =>
      rw [scanned] at read
      cases read
    | ok tokens =>
      rw [scanned] at read
      cases found : readExpr (8 * (tokens.length + 2)) depthLimit 0 tokens with
      | error fault =>
        change (readExpr (8 * (tokens.length + 2)) depthLimit 0 tokens >>= _) = _ at read
        rw [found] at read
        cases read
      | ok parts =>
        change (readExpr (8 * (tokens.length + 2)) depthLimit 0 tokens >>= _) = _ at read
        rw [found] at read
        change (if parts.2.isEmpty = true then Except.ok parts.1 else
          Except.error TextFault.malformed) = .ok e at read
        split at read
        · cases read
          exact (readers _).expr _ _ _ parts.1 parts.2 found
        · cases read
  all_goals cases compiled

/-! ## Keeping what is written out -/

end Path

namespace Store

variable {low : Nat} {s : Store}

/-- The place lies between two others. -/
def Between (low high : Nat) (share : Share) : Prop := low ≤ share.cell ∧ share.cell < high

/-- From a place on, there is only data, and it holds only what is from there on. -/
structure Sprouts (low : Nat) (s : Store) : Prop where
  start : low ≤ s.cells.size
  data : ∀ share c, low ≤ share.cell → s.cell? share = some c →
    ∃ content, c = .data content ∧ content.Every (Between low s.cells.size)

/-- The work goes on with a store that sprouts, and gives what holds only what sprouted. -/
def Grafts {α : Type} (low : Nat) (holds : (Share → Prop) → α → Prop) (work : StateM Store α) : Prop :=
  ∀ s, Sprouts low s → Sprouts low (work.run s).2 ∧ s.cells.size ≤ (work.run s).2.cells.size ∧
    holds (Between low (work.run s).2.cells.size) (work.run s).1

theorem between_mono {high higher : Nat} (more : high ≤ higher) (share : Share)
    (inside : Between low high share) : Between low higher share :=
  ⟨inside.1, Nat.lt_of_lt_of_le inside.2 more⟩

namespace Grafts

variable {α β : Type} {holds : (Share → Prop) → α → Prop} {gives : (Share → Prop) → β → Prop}

theorem pure {a : α} (held : ∀ P, holds P a) : Grafts low holds (Pure.pure a : StateM Store α) :=
  fun _ sprouts => ⟨sprouts, Nat.le_refl _, held _⟩

/-- What goes on is given what was kept, wherever more is kept. -/
theorem bind {work : StateM Store α} {next : α → StateM Store β} (first : Grafts low holds work)
    (rest : ∀ a s, holds (Between low s.cells.size) a → Sprouts low s →
      Sprouts low ((next a).run s).2 ∧ s.cells.size ≤ ((next a).run s).2.cells.size ∧
        gives (Between low ((next a).run s).2.cells.size) ((next a).run s).1) :
    Grafts low gives (work >>= next) := by
  intro s sprouts
  obtain ⟨sprouted, grown, held⟩ := first s sprouts
  obtain ⟨last, further, given⟩ := rest _ _ held sprouted
  exact ⟨last, Nat.le_trans grown further, given⟩

end Grafts

private theorem keep_grafts {content : Datum} (s : Store)
    (held : content.Every (Between low s.cells.size))
    (sprouts : Sprouts low s) : Sprouts low ((keep content).run s).2 ∧
      s.cells.size ≤ ((keep content).run s).2.cells.size ∧
        Value.Every (Between low ((keep content).run s).2.cells.size) ((keep content).run s).1 := by
  have size : ((keep content).run s).2.cells.size = s.cells.size + 1 := Array.size_push _
  have more : s.cells.size ≤ ((keep content).run s).2.cells.size := by omega
  refine ⟨⟨Nat.le_trans sprouts.start more, fun share c later found => ?_⟩, more, ?_⟩
  · change (s.cells.push (.data content))[share.cell]? = some c at found
    rw [Array.getElem?_push] at found
    split at found
    · cases found
      exact ⟨content, rfl, held.mono (between_mono more)⟩
    · obtain ⟨inner, rfl, inside⟩ := sprouts.data share c later found
      exact ⟨inner, rfl, inside.mono (between_mono more)⟩
  · exact Value.every_shared.mpr ⟨sprouts.start, by rw [size]; exact Nat.lt_succ_self _⟩

mutual

theorem share_grafts (v : Datum) (lone : v.Every fun _ => False) : Grafts low Value.Every (share v) := by
  cases v with
  | list items => exact (shareItems_grafts items lone).bind fun kept s held => keep_grafts s held
  | object fields => exact (shareFields_grafts fields lone).bind fun kept s held => keep_grafts s held
  | table entries => exact (shareEntries_grafts entries lone).bind fun kept s held => keep_grafts s held
  | shared share => exact lone.elim
  | _ => exact .pure fun _ => trivial

theorem shareItems_grafts (items : List Datum) (lone : Value.EveryItem (fun _ => False) items) :
    Grafts low Value.EveryItem (shareItems items) := by
  cases items with
  | nil => exact .pure fun _ => trivial
  | cons v rest =>
    refine (share_grafts v lone.1).bind fun first s held sprouts => ?_
    obtain ⟨sprouted, grown, others⟩ := shareItems_grafts rest lone.2 s sprouts
    exact ⟨sprouted, grown, held.mono (between_mono grown), others⟩

theorem shareFields_grafts (fields : List (String × Datum))
    (lone : Value.EveryField (fun _ => False) fields) :
    Grafts low Value.EveryField (shareFields fields) := by
  cases fields with
  | nil => exact .pure fun _ => trivial
  | cons entry rest =>
    refine (share_grafts entry.2 lone.1).bind fun first s held sprouts => ?_
    obtain ⟨sprouted, grown, others⟩ := shareFields_grafts rest lone.2 s sprouts
    exact ⟨sprouted, grown, held.mono (between_mono grown), others⟩

theorem shareEntries_grafts (entries : List (Datum × Datum))
    (lone : Value.EveryEntry (fun _ => False) entries) :
    Grafts low Value.EveryEntry (shareEntries entries) := by
  cases entries with
  | nil => exact .pure fun _ => trivial
  | cons entry rest =>
    refine (share_grafts entry.2 lone.1.2).bind fun first s held sprouts => ?_
    obtain ⟨sprouted, grown, others⟩ := shareEntries_grafts rest lone.2 s sprouts
    exact ⟨sprouted, grown, ⟨lone.1.1.mono fun _ => False.elim, held.mono (between_mono grown)⟩, others⟩

end

mutual

theorem shareLiterals_grafts (e : Path.Expr) (lone : e.Every fun _ => False) :
    Grafts low Path.Expr.Every (shareLiterals e) := by
  cases e with
  | literal value =>
    exact (share_grafts value lone).bind fun kept s held sprouts => ⟨sprouts, Nat.le_refl _, held⟩
  | chain steps | listOf steps =>
    exact (shareAll_grafts steps lone).bind fun kept s held sprouts => ⟨sprouts, Nat.le_refl _, held⟩
  | objectOf members =>
    exact (shareMembers_grafts members lone).bind fun kept s held sprouts =>
      ⟨sprouts, Nat.le_refl _, held⟩
  | call function arguments =>
    exact (shareAll_grafts arguments lone).bind fun kept s held sprouts => ⟨sprouts, Nat.le_refl _, held⟩
  | flatten inner | negate inner | quotation inner =>
    exact (shareLiterals_grafts inner lone).bind fun kept s held sprouts =>
      ⟨sprouts, Nat.le_refl _, held⟩
  | pipe left right | each left right | eachValue left right | compare _ left right
  | either left right | both left right =>
    refine (shareLiterals_grafts left lone.1).bind fun first s held sprouts => ?_
    obtain ⟨sprouted, grown, other⟩ := shareLiterals_grafts right lone.2 s sprouts
    exact ⟨sprouted, grown, held.mono (between_mono grown), other⟩
  | filter list rhs condition =>
    refine (shareLiterals_grafts list lone.1).bind fun first s held sprouts => ?_
    obtain ⟨mid, grown, second⟩ := shareLiterals_grafts rhs lone.2.1 s sprouts
    obtain ⟨last, further, third⟩ := shareLiterals_grafts condition lone.2.2 _ mid
    exact ⟨last, Nat.le_trans grown further, held.mono (between_mono (Nat.le_trans grown further)),
      second.mono (between_mono further), third⟩
  | current | field _ | index _ | slice _ _ _ => exact .pure fun _ => trivial

theorem shareAll_grafts (es : List Path.Expr) (lone : Path.Expr.EveryOf (fun _ => False) es) :
    Grafts low Path.Expr.EveryOf (shareAll es) := by
  cases es with
  | nil => exact .pure fun _ => trivial
  | cons e rest =>
    refine (shareLiterals_grafts e lone.1).bind fun first s held sprouts => ?_
    obtain ⟨sprouted, grown, others⟩ := shareAll_grafts rest lone.2 s sprouts
    exact ⟨sprouted, grown, held.mono (between_mono grown), others⟩

theorem shareMembers_grafts (members : List (String × Path.Expr))
    (lone : Path.Expr.EveryMember (fun _ => False) members) :
    Grafts low Path.Expr.EveryMember (shareMembers members) := by
  cases members with
  | nil => exact .pure fun _ => trivial
  | cons member rest =>
    refine (shareLiterals_grafts member.2 lone.1).bind fun first s held sprouts => ?_
    obtain ⟨sprouted, grown, others⟩ := shareMembers_grafts rest lone.2 s sprouts
    exact ⟨sprouted, grown, held.mono (between_mono grown), others⟩

end

end Store

end ResourceGraph
