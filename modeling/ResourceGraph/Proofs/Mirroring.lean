import ResourceGraph.Proofs.Equivariance
import ResourceGraph.Proofs.Literals

/-!
Searching again. What a path finds in a store, it finds again in any store that has all that the
first search left, up to where new containers are kept. The expression of the path is read and what
it writes out is kept the first time only, so that the containers written out are the same both
times, and all others that are new are apart.
-/

namespace ResourceGraph

open ResourceGraph.Store ResourceGraph.Path

namespace Store

/-- The second store has everything that the first one has, the expressions that were read included. -/
structure Extends (s t : Store) : Prop where
  cells : Grows s t
  expressions : ∀ text asked, Keyed.get? s.expressions text = some asked →
    Keyed.get? t.expressions text = some asked

theorem extends_lasting : Lasting Extends where
  refl s := ⟨grows_lasting.refl s, fun _ _ known => known⟩
  trans first second := ⟨grows_lasting.trans first.cells second.cells,
    fun text asked known => second.expressions text asked (first.expressions text asked known)⟩

theorem Adds.extends {s t : Store} (adds : Adds s t) : Extends s t :=
  ⟨adds.cells, fun text asked known => by rw [adds.expressions, known]⟩

theorem Extends.size_le {s t : Store} (extends' : Extends s t) : s.cells.size ≤ t.cells.size := by
  by_contra fewer
  have last := extends'.cells t.cells.size _ (Array.getElem?_eq_getElem (Nat.lt_of_not_le fewer))
  rw [Array.getElem?_eq_none (Nat.le_refl _)] at last
  cases last

/-- The second store has what the first one has at some places, and the expressions that were read. -/
structure Retains (kept : Share → Prop) (s t : Store) : Prop where
  size : s.cells.size ≤ t.cells.size
  cells : ∀ share c, kept share → s.cell? share = some c → t.cell? share = some c
  expressions : ∀ text asked, Keyed.get? s.expressions text = some asked →
    Keyed.get? t.expressions text = some asked

theorem retains_lasting (kept : Share → Prop) : Lasting (Retains kept) where
  refl _ := ⟨Nat.le_refl _, fun _ _ _ found => found, fun _ _ known => known⟩
  trans first second := ⟨Nat.le_trans first.size second.size,
    fun share c within found => second.cells share c within (first.cells share c within found),
    fun text asked known => second.expressions text asked (first.expressions text asked known)⟩

theorem Extends.retains {s t : Store} (extends' : Extends s t) (kept : Share → Prop) :
    Retains kept s t :=
  ⟨extends'.size_le, fun share c _ found => extends'.cells share.cell c found, extends'.expressions⟩

theorem Retains.mono {kept more : Share → Prop} {s t : Store} (retains : Retains more s t)
    (fewer : ∀ share, kept share → more share) : Retains kept s t :=
  ⟨retains.size, fun share c within => retains.cells share c (fewer share within), retains.expressions⟩

/-- The share stands for something that is there. -/
def Within (s : Store) (share : Share) : Prop := share.cell < s.cells.size

/-- Whatever is held by what the store keeps, is there. -/
structure Closed (s : Store) : Prop where
  data : ∀ share content, s.cell? share = some (.data content) → content.Every s.Within
  queries : ∀ share asked, s.cell? share = some (.query asked) → asked.Every s.Within
  expressions : ∀ text asked, Keyed.get? s.expressions text = some asked → asked.Every s.Within

variable {s t : Store}

theorem cell?_of_within {share : Share} (within : s.Within share) : ∃ c, s.cell? share = some c :=
  ⟨_, Array.getElem?_eq_getElem within⟩

theorem within_mono (more : s.cells.size ≤ t.cells.size) (share : Share) (within : s.Within share) :
    t.Within share := Nat.lt_of_lt_of_le within more

/-- What is kept stays what it is where a store is added to. -/
theorem Grows.treeTo {depth : Nat} {v : Datum} (closed : s.Closed) (grows : Grows s t)
    (within : v.Every s.Within) : t.treeTo depth v = s.treeTo depth v := by
  have region : s.Region s.Within :=
    ⟨fun _ => cell?_of_within, fun share content _ found => closed.data share content found⟩
  exact treeTo_of_region region (region.of_grows grows).2 depth within

theorem expression_extends (text : String) : Keeps Extends (Path.expression text) := by
  intro s
  cases known : Keyed.get? s.expressions text with
  | some asked =>
    rw [expression_known known]
    exact extends_lasting.refl s
  | none =>
    rw [expression_unknown known]
    cases compile text with
    | error fault => exact extends_lasting.refl s
    | ok read =>
      have adds := shareLiterals_adds read s
      refine ⟨adds.cells, fun other asked there => ?_⟩
      have different : other ≠ text := by
        rintro rfl
        rw [known] at there
        cases there
      dsimp only
      rw [Keyed.get?_put_of_ne _ _ different, adds.expressions, there]

theorem search_extends (text : String) (v : Datum) : Keeps Extends (Path.search text v) := by
  unfold Path.search
  split
  · exact .pure extends_lasting _
  · refine .bind extends_lasting (expression_extends text) fun asked s => ?_
    rw [runIn_adapt]
    exact (Adding.evalTo _ _ asked v s).extends

end Store

/-! ## What work leaves is closed -/

namespace Relocation

/-- Everything below a number stays, and everything from there on is moved. -/
def beyond (n : Nat) : Relocation where
  place share := if share.cell < n then share else ⟨share.cell + 1⟩
  injective a b same := by
    dsimp only at same
    split at same <;> split at same
    · exact same
    · have := congrArg Share.cell same
      dsimp only at this
      omega
    · have := congrArg Share.cell same
      dsimp only at this
      omega
    · exact congrArg Share.mk (Nat.succ.inj (congrArg Share.cell same))
  limit := n

theorem place_beyond {n : Nat} {share : Share} : (beyond n).place share = share ↔ share.cell < n := by
  simp only [beyond]
  split
  · next below => exact iff_of_true rfl below
  · next above =>
    refine iff_of_false (fun same => ?_) above
    have := congrArg Share.cell same
    dsimp only at this
    omega

theorem fits_beyond {s : Store} {n : Nat} (closed : s.Closed) (more : s.cells.size ≤ n) :
    (beyond n).Fits s s := by
  have stays : ∀ share, s.Within share → (beyond n).place share = share :=
    fun share within => place_beyond.mpr (Nat.lt_of_lt_of_le within more)
  refine ⟨fun share => ?_, fun share asked found => (closed.queries share asked found).mono stays,
    fun k below => place_beyond.mpr below⟩
  by_cases within : s.Within share
  · rw [stays share within]
    obtain ⟨c, found⟩ := cell?_of_within within
    rw [found]
    cases c with
    | query asked => rfl
    | data content =>
      have same := (beyond n).moved_eq_self ((closed.data share content found).mono stays)
      exact congrArg (fun content => some (Cell.data content)) same.symm
  · have none : s.cell? share = none := Array.getElem?_eq_none (Nat.le_of_not_lt within)
    have moved : s.cell? ((beyond n).place share) = Option.none := by
      refine Array.getElem?_eq_none ?_
      simp only [beyond]
      split
      · exact Nat.le_of_not_lt within
      · exact Nat.le_succ_of_le (Nat.le_of_not_lt within)
    rw [none, moved]
    rfl

/-- Work that does not depend on where containers are kept holds nothing that is not there. -/
theorem closed_of_even {ε : Type} {x : ExceptT ε (StateM Store) Datum} {s : Store} (closed : s.Closed)
    (even : (beyond (runIn x s).2.cells.size).Even (beyond (runIn x s).2.cells.size).moved x x) :
    (runIn x s).2.Closed ∧ ∀ v, (runIn x s).1 = .ok v → v.Every (runIn x s).2.Within := by
  have adds := even.adds s
  obtain ⟨fits, same⟩ := even.same s s (fits_beyond closed adds.size_le) (Nat.le_refl _)
  have inside : ∀ v : Datum, (beyond (runIn x s).2.cells.size).moved v = v →
      v.Every (runIn x s).2.Within :=
    fun v stays => (every_of_moved_eq_self _ stays).mono fun share => place_beyond.mp
  refine ⟨⟨fun share content found => ?_, fun share asked found => ?_, fun text asked known => ?_⟩,
    fun v gave => ?_⟩
  · have moved := fits.cells share
    rw [place_beyond.mpr (lt_size_of_cell? found), found] at moved
    exact inside content (Cell.data.inj (Option.some.inj moved)).symm
  · exact (fits.queries share asked found).mono fun share => place_beyond.mp
  · rw [adds.expressions] at known
    exact (closed.expressions text asked known).mono (within_mono adds.size_le)
  · rw [gave] at same
    exact inside v (Except.ok.inj same).symm

theorem eval_closed {s : Store} {e : Expr} {v : Datum} (closed : s.Closed) (written : e.Every s.Within)
    (within : v.Every s.Within) : (runIn (Path.eval e v) s).2.Closed ∧
      ∀ w, (runIn (Path.eval e v) s).1 = .ok w → w.Every (runIn (Path.eval e v) s).2.Within := by
  have more := (Adding.evalTo depthOfEval depthOfEval e v s).size_le
  have stays : ∀ share, s.Within share →
      (beyond (runIn (Path.eval e v) s).2.cells.size).place share = share :=
    fun share within => place_beyond.mpr (Nat.lt_of_lt_of_le within more)
  refine closed_of_even closed ?_
  have even := Even.eval (written.mono stays) v
  rwa [moved_eq_self _ (within.mono stays)] at even

end Relocation

/-! ## The same search in two stores -/

/-- The second store, to which a run that began at `origin` came, mirrors the first one. Some places
are the same in both: those that there were when the first run began, and those of what expressions
write out. All else that the first run kept is found where the second one kept it. -/
structure Relocation.Mirrors (m : Relocation) (kept : Share → Prop) (origin s t : Store) : Prop where
  fits : m.Fits s t
  closed : s.Closed
  there : ∀ share, kept share → s.Within share
  stays : ∀ share, kept share → m.place share = share
  apart : ∀ share, s.Within share → ¬ kept share → origin.cells.size ≤ (m.place share).cell
  literals : ∀ text asked, Keyed.get? s.expressions text = some asked → m.Leaves asked
  expressions : t.expressions = origin.expressions
  since : Grows origin t

namespace Relocation

variable {m : Relocation} {kept : Share → Prop} {origin s t : Store}

theorem Mirrors.stays_or_apart (mirrors : m.Mirrors kept origin s t) (share : Share)
    (within : s.Within share) :
    m.place share = share ∨ origin.cells.size ≤ (m.place share).cell := by
  by_cases same : kept share
  · exact .inl (mirrors.stays share same)
  · exact .inr (mirrors.apart share within same)

theorem Mirrors.size_le (mirrors : m.Mirrors kept origin s t) : origin.cells.size ≤ t.cells.size :=
  Extends.size_le ⟨mirrors.since, fun _ _ known => by rw [mirrors.expressions, known]⟩

/-- What goes on with both runs keeps the stores mirrored, as long as they fit and the second one
keeps what it began with. -/
theorem Mirrors.onward {larger larger' : Store} (mirrors : m.Mirrors kept origin s t)
    (fits : m.Fits larger larger') (closed : larger.Closed)
    (more : s.cells.size ≤ larger.cells.size) (known : larger.expressions = s.expressions)
    (known' : larger'.expressions = t.expressions) (room : larger.cells.size ≤ m.limit)
    (since : Grows origin larger') :
    m.Mirrors kept origin larger larger' := by
  refine ⟨fits, closed, fun share within => within_mono more share (mirrors.there share within),
    mirrors.stays,
    fun share within other => ?_, fun text asked there => ?_, known'.trans mirrors.expressions, since⟩
  · by_cases before : s.Within share
    · exact mirrors.apart share before other
    · obtain ⟨k, kth⟩ := Nat.exists_eq_add_of_le (Nat.le_of_not_lt before)
      have new : m.place share = ⟨t.cells.size + k⟩ := by
        have placed := mirrors.fits.new k (kth ▸ Nat.lt_of_lt_of_le within room)
        rwa [← kth] at placed
      rw [new]
      exact Nat.le_trans mirrors.size_le (Nat.le_add_right _ _)
  · rw [known] at there
    exact mirrors.literals text asked there

/-- Work that is even goes on with stores that mirror each other. -/
theorem Mirrors.even {ε α β : Type} {f : α → β} {x : ExceptT ε (StateM Store) α}
    {y : ExceptT ε (StateM Store) β} (mirrors : m.Mirrors kept origin s t) (even : m.Even f x y)
    (adds : Keeps Adds y) (closed : (runIn x s).2.Closed) (room : (runIn x s).2.cells.size ≤ m.limit) :
    m.Mirrors kept origin (runIn x s).2 (runIn y t).2 ∧ (runIn y t).1 = (runIn x s).1.map f := by
  obtain ⟨fits, same⟩ := even.same s t mirrors.fits room
  have grown := even.adds s
  exact ⟨mirrors.onward fits closed grown.size_le grown.expressions (adds t).expressions room
    (grows_lasting.trans mirrors.since (adds t).cells), same⟩

/-- The relocation that leaves what was kept between the first store and a larger one where it is. -/
def leaving (m : Relocation) (origin s larger t : Store) (fits : m.Fits s t)
    (apart : ∀ share, s.Within share → m.place share = share ∨ origin.cells.size ≤ (m.place share).cell)
    (held : larger.cells.size ≤ origin.cells.size) (begun : origin.cells.size ≤ t.cells.size) :
    Relocation where
  place share :=
    if share.cell < s.cells.size then m.place share
    else if share.cell < larger.cells.size then share
    else ⟨share.cell - larger.cells.size + t.cells.size⟩
  injective := by
    have low : ∀ share : Share, share.cell < s.cells.size → (m.place share).cell < t.cells.size := by
      intro share within
      obtain ⟨c, found⟩ := cell?_of_within within
      have there := fits.cells share
      rw [found] at there
      exact lt_size_of_cell? there
    have differs : ∀ share other : Share, share.cell < s.cells.size → ¬ other.cell < s.cells.size →
        other.cell < larger.cells.size → m.place share ≠ other := by
      rintro share other within beyond less rfl
      rcases apart share within with same | far
      · rw [same] at beyond
        exact beyond within
      · omega
    intro a b same
    dsimp only at same
    split at same
    · next first =>
      split at same
      · exact m.injective same
      · next second =>
        split at same
        · next less => exact absurd same (differs a b first second less)
        · have := low a first
          rw [same] at this
          dsimp only at this
          omega
    · next first =>
      split at same
      · next less =>
        split at same
        · next second => exact absurd same.symm (differs b a second first less)
        · split at same
          · exact same
          · have := congrArg Share.cell same
            dsimp only at this
            omega
      · split at same
        · next second =>
          have := low b second
          rw [← same] at this
          dsimp only at this
          omega
        · split at same
          · have := congrArg Share.cell same
            dsimp only at this
            omega
          · have := congrArg Share.cell same
            dsimp only at this
            cases a
            cases b
            simp only [Share.mk.injEq]
            simp only at *
            omega
  limit := m.limit

end Relocation

/-! ## Reading an expression -/

namespace Store

/-- The second store is the first one after an expression was read, and what it writes out was kept. -/
structure Learned (s t : Store) (text : String) (asked : Expr) : Prop where
  adds : Grows s t
  sprouts : Sprouts s.cells.size t
  written : asked.Every (Between s.cells.size t.cells.size)
  expressions : t.expressions = Keyed.put s.expressions text asked

theorem learned_of_expression {s : Store} {text : String} {read : Expr}
    (unknown : Keyed.get? s.expressions text = none) (compiled : compile text = .ok read) :
    ∃ t asked, runIn (Path.expression text) s = (.ok asked, t) ∧ Learned s t text asked := by
  have adds := shareLiterals_adds read s
  have begun : Sprouts s.cells.size s := by
    refine ⟨Nat.le_refl _, fun share c beyond found => ?_⟩
    exact absurd (lt_size_of_cell? found) (Nat.not_lt.mpr beyond)
  obtain ⟨sprouts, _, written⟩ := shareLiterals_grafts read (every_of_compile compiled) s begun
  have learned : runIn (Path.expression text) s = (.ok ((shareLiterals read).run s).1,
      { ((shareLiterals read).run s).2 with
        expressions := Keyed.put ((shareLiterals read).run s).2.expressions text
          ((shareLiterals read).run s).1 }) := by
    rw [expression_unknown unknown, compiled]
  refine ⟨_, _, learned, adds.cells, ⟨sprouts.start, sprouts.data⟩, written, ?_⟩
  dsimp only
  rw [adds.expressions]

theorem Learned.closed {s t : Store} {text : String} {asked : Expr} (learned : Learned s t text asked)
    (closed : s.Closed) : t.Closed := by
  have more : s.cells.size ≤ t.cells.size := learned.sprouts.start
  have old : ∀ {share c}, share.cell < s.cells.size → t.cell? share = some c →
      s.cell? share = some c := by
    intro share c within found
    obtain ⟨kept, there⟩ := cell?_of_within within
    have same := learned.adds share.cell kept there
    change t.cell? share = some kept at same
    rw [found] at same
    cases same
    exact there
  have new : ∀ share, Between s.cells.size t.cells.size share → t.Within share := fun _ => And.right
  refine ⟨fun share content found => ?_, fun share asked found => ?_, fun other known there => ?_⟩
  · by_cases within : share.cell < s.cells.size
    · exact (closed.data share content (old within found)).mono (within_mono more)
    · obtain ⟨_, ⟨⟩, every⟩ := learned.sprouts.data share _ (Nat.le_of_not_lt within) found
      exact every.mono new
  · by_cases within : share.cell < s.cells.size
    · exact (closed.queries share asked (old within found)).mono (within_mono more)
    · obtain ⟨_, other, _⟩ := learned.sprouts.data share _ (Nat.le_of_not_lt within) found
      cases other
  · rw [learned.expressions] at there
    by_cases same : other = text
    · subst same
      rw [Keyed.get?_put_self] at there
      cases there
      exact learned.written.mono new
    · rw [Keyed.get?_put_of_ne _ _ same] at there
      exact (closed.expressions other known there).mono (within_mono more)

/-- What is written out for a path when it is searched now: the containers of its expression, if it
was not read before. -/
def WrittenOut (path : String) (s : Store) (share : Share) : Prop :=
  path ≠ whole ∧ Between s.cells.size (runIn (Path.expression path) s).2.cells.size share

end Store

namespace Relocation

variable {m : Relocation} {kept : Share → Prop} {origin s t : Store}

/-- When the first run reads an expression, the second one knows it, with the same containers
written out. -/
theorem Mirrors.learn {larger : Store} {text : String} {asked : Expr}
    (mirrors : m.Mirrors kept origin s t) (learned : Learned s larger text asked)
    (later : Retains (fun share => kept share ∨ Between s.cells.size larger.cells.size share)
      larger origin) :
    ∃ n : Relocation, n.limit = m.limit ∧ (∀ share, s.Within share → n.place share = m.place share) ∧
      n.Mirrors (fun share => kept share ∨ Between s.cells.size larger.cells.size share) origin
        larger t := by
  let n := m.leaving origin s larger t mirrors.fits mirrors.stays_or_apart later.size mirrors.size_le
  have old : ∀ share, s.Within share → n.place share = m.place share := fun share within => if_pos within
  have new : ∀ share, Between s.cells.size larger.cells.size share → n.place share = share := by
    intro share between
    exact (if_neg (Nat.not_lt.mpr between.1)).trans (if_pos between.2)
  have far : ∀ share : Share, larger.cells.size ≤ share.cell →
      n.place share = ⟨share.cell - larger.cells.size + t.cells.size⟩ := by
    intro share above
    exact (if_neg (Nat.not_lt.mpr (Nat.le_trans learned.sprouts.start above))).trans
      (if_neg (Nat.not_lt.mpr above))
  have leaves : ∀ {asked : Expr}, asked.Every s.Within → m.Leaves asked → n.Leaves asked :=
    fun within stays => (within.both stays).mono fun share both => (old share both.1).trans both.2
  refine ⟨n, rfl, old, ⟨⟨fun share => ?_, fun share asked found => ?_, fun k below => ?_⟩,
    learned.closed mirrors.closed, fun share within => ?_,
    fun share within => ?_, fun share within other => ?_,
    fun other known there => ?_, mirrors.expressions, mirrors.since⟩⟩
  · by_cases within : s.Within share
    · obtain ⟨c, found⟩ := cell?_of_within within
      rw [old share within, mirrors.fits.cells, found,
        (show larger.cell? share = some c from learned.adds share.cell c found)]
      cases c with
      | query asked => rfl
      | data content =>
        have same := moved_congr (m := m) (n := n)
          ((mirrors.closed.data share content found).mono fun share within => (old share within).symm)
        exact congrArg (fun content => some (Cell.data content)) same
    · by_cases below : larger.Within share
      · have between : Between s.cells.size larger.cells.size share := ⟨Nat.le_of_not_lt within, below⟩
        obtain ⟨c, found⟩ := cell?_of_within below
        obtain ⟨content, rfl, every⟩ := learned.sprouts.data share c between.1 found
        rw [new share between, found]
        refine (mirrors.since share.cell _ (later.cells share _ (.inr between) found)).trans ?_
        exact congrArg (fun content => some (Cell.data content)) (n.moved_eq_self (every.mono new)).symm
      · have none : larger.cell? share = none := Array.getElem?_eq_none (Nat.le_of_not_lt below)
        rw [far share (Nat.le_of_not_lt below), none]
        exact Array.getElem?_eq_none (Nat.le_add_left _ _)
  · by_cases within : s.Within share
    · obtain ⟨c, there⟩ := cell?_of_within within
      have same := learned.adds share.cell c there
      change larger.cell? share = some c at same
      rw [found] at same
      cases same
      exact leaves (mirrors.closed.queries share asked there) (mirrors.fits.queries share asked there)
    · obtain ⟨_, other, _⟩ := learned.sprouts.data share _ (Nat.le_of_not_lt within) found
      cases other
  · rw [far _ (Nat.le_add_right _ _)]
    exact congrArg Share.mk (by dsimp only; omega)
  · rcases within with before | between
    · exact within_mono learned.sprouts.start share (mirrors.there share before)
    · exact between.2
  · rcases within with before | between
    · exact (old share (mirrors.there share before)).trans (mirrors.stays share before)
    · exact new share between
  · have before : s.Within share := by
      by_contra beyond
      exact other (.inr ⟨Nat.le_of_not_lt beyond, within⟩)
    rw [old share before]
    exact mirrors.apart share before fun same => other (.inl same)
  · rw [learned.expressions] at there
    by_cases same : other = text
    · subst same
      rw [Keyed.get?_put_self] at there
      cases there
      exact learned.written.mono new
    · rw [Keyed.get?_put_of_ne _ _ same] at there
      exact leaves (mirrors.closed.expressions other known there) (mirrors.literals other known there)

/-- Nothing more is the same in both where nothing more is to be. -/
theorem Mirrors.also {more : Share → Prop} (mirrors : m.Mirrors kept origin s t)
    (none : ∀ share, ¬ more share) :
    m.Mirrors (fun share => kept share ∨ more share) origin s t := by
  have same : (fun share => kept share ∨ more share) = kept :=
    funext fun share => propext (or_iff_left (none share))
  rw [same]
  exact mirrors

/-- What the first run found the second one finds too, in a store that mirrors what the first one
left. -/
structure Finds (m : Relocation) (kept : Share → Prop) (origin s : Store)
    (x : Except Failure Datum × Store)
    (y : Except Failure Datum × Store) (n : Relocation) : Prop where
  limit : n.limit = m.limit
  same : ∀ share, s.Within share → n.place share = m.place share
  mirrors : n.Mirrors kept origin x.2 y.2
  found : y.1 = x.1.map n.moved
  within : ∀ v, x.1 = .ok v → v.Every x.2.Within

theorem Mirrors.finds {v : Datum} {e : Expr} (mirrors : m.Mirrors kept origin s t)
    (within : v.Every s.Within)
    (written : e.Every s.Within) (leaves : m.Leaves e)
    (room : (runIn (Path.eval e v) s).2.cells.size ≤ m.limit) :
    m.Finds kept origin s (runIn (ExceptT.adapt Failure.path (Path.eval e v) : Search Datum) s)
      (runIn (ExceptT.adapt Failure.path (Path.eval e (m.moved v)) : Search Datum) t) m := by
  obtain ⟨closed, inside⟩ := eval_closed mirrors.closed written within
  obtain ⟨after, same⟩ := mirrors.even (Even.eval leaves v) (Adding.evalTo _ _ e _) closed room
  refine ⟨rfl, fun _ _ => rfl, after, ?_, fun w gave => ?_⟩
  · rw [runIn_adapt, runIn_adapt, same]
    cases (runIn (Path.eval e v) s).1 <;> rfl
  · rw [runIn_adapt] at gave
    cases found : (runIn (Path.eval e v) s).1 with
    | error fault =>
      rw [found] at gave
      cases gave
    | ok u =>
      rw [found] at gave
      change Except.ok u = Except.ok w at gave
      cases gave
      exact inside w found

/-- A search finds the same again. Texts that are no expressions are not kept as such. -/
theorem Mirrors.search {path : String} {v : Datum} (mirrors : m.Mirrors kept origin s t)
    (within : v.Every s.Within)
    (later : Retains (fun share => kept share ∨ WrittenOut path s share)
      (runIn (Path.search path v) s).2 origin)
    (room : (runIn (Path.search path v) s).2.cells.size ≤ m.limit)
    (unread : ∀ text f, compile text = .error f → Keyed.get? origin.expressions text = none) :
    ∃ n, m.Finds (fun share => kept share ∨ WrittenOut path s share) origin s
      (runIn (Path.search path v) s)
      (runIn (Path.search path (m.moved v)) t) n := by
  by_cases all : path = whole
  · have plain : ∀ w, Path.search path w = (pure w : Search Datum) := fun w => if_pos all
    have none : ∀ share, ¬ WrittenOut path s share := fun share written => written.1 all
    rw [plain, plain]
    exact ⟨m, rfl, fun _ _ => rfl, mirrors.also none, rfl, fun w gave => by cases gave; exact within⟩
  have split : ∀ w, Path.search path w = (Path.expression path >>= fun asked =>
      ExceptT.adapt Failure.path (Path.eval asked w) : Search Datum) := fun w => if_neg all
  have between : ∀ {result : Except Failure Expr} {mid : Store}, runIn (Path.expression path) s =
      (result, mid) →
      WrittenOut path s = Between s.cells.size mid.cells.size := by
    intro result mid ran
    funext share
    unfold WrittenOut
    rw [ran]
    exact propext ⟨And.right, And.intro all⟩
  rw [split] at later room
  rw [split, split]
  -- What either run asks next is known to both: it was read before, or the first run reads it now.
  have going : ∀ {n : Relocation} {mid : Store} {asked : Expr},
      runIn (Path.expression path) s = (.ok asked, mid) → n.limit = m.limit →
      (∀ share, s.Within share → n.place share = m.place share) →
      n.Mirrors (fun share => kept share ∨ WrittenOut path s share) origin mid t →
      s.cells.size ≤ mid.cells.size → Keyed.get? mid.expressions path = some asked →
      ∃ n, m.Finds (fun share => kept share ∨ WrittenOut path s share) origin s
        (runIn (Path.expression path >>= fun asked =>
          (ExceptT.adapt Failure.path (Path.eval asked v) : Search Datum)) s)
        (runIn (Path.expression path >>= fun asked =>
          (ExceptT.adapt Failure.path (Path.eval asked (m.moved v)) : Search Datum)) t) n := by
    intro n mid asked ran limit same mirrored more known
    rw [runIn_bind_ok ran] at later room ⊢
    have again : Keyed.get? t.expressions path = some asked := by
      rw [mirrored.expressions]
      refine later.expressions path asked ?_
      rw [runIn_adapt]
      exact ((Adding.evalTo _ _ asked v mid).expressions ▸ known :)
    rw [runIn_bind_ok (expression_known again)]
    have moved : m.moved v = n.moved v :=
      moved_congr (within.mono fun share inside => (same share inside).symm)
    rw [moved]
    have finds :=
      mirrored.finds (within.mono (within_mono more)) (mirrored.closed.expressions path asked known)
      (mirrored.literals path asked known) (limit ▸ room)
    exact ⟨n, limit, same, finds.mirrors, finds.found, finds.within⟩
  cases known : Keyed.get? s.expressions path with
  | some asked =>
    have ran := expression_known known
    have none : ∀ share, ¬ WrittenOut path s share := by
      rw [between ran]
      exact fun share written => absurd written.2 (Nat.not_lt.mpr written.1)
    exact going ran rfl (fun _ _ => rfl) (mirrors.also none) (Nat.le_refl _) known
  | none =>
    cases compiled : compile path with
    | error f =>
      have again : Keyed.get? t.expressions path = none := by
        rw [mirrors.expressions]
        exact unread path f compiled
      have fails : ∀ {u : Store}, Keyed.get? u.expressions path = none →
          runIn (Path.expression path) u = (.error f, u) := by
        intro u fresh
        rw [expression_unknown fresh, compiled]
      have none : ∀ share, ¬ WrittenOut path s share := by
        rw [between (fails known)]
        exact fun share written => absurd written.2 (Nat.not_lt.mpr written.1)
      rw [runIn_bind_error (fails known), runIn_bind_error (fails again)]
      exact ⟨m, rfl, fun _ _ => rfl, mirrors.also none, rfl, nofun⟩
    | ok read =>
      obtain ⟨larger, asked, ran, learned⟩ := learned_of_expression known compiled
      rw [between ran] at later ⊢
      have retained : Retains (fun share => kept share ∨
          Between s.cells.size larger.cells.size share) larger origin := by
        rw [runIn_bind_ok ran, runIn_adapt] at later
        exact (retains_lasting _).trans ((Adding.evalTo _ _ asked v larger).extends.retains _) later
      obtain ⟨n, limit, same, mirrored⟩ := mirrors.learn learned retained
      rw [← between ran] at later mirrored ⊢
      refine going ran limit same mirrored learned.sprouts.start ?_
      rw [learned.expressions, Keyed.get?_put_self]

end Relocation

end ResourceGraph
