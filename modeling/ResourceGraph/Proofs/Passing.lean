import ResourceGraph.Proofs.Confinement
import ResourceGraph.Proofs.Mirroring

/-!
What a write passes through. On its way into parameters a write goes through the containers that are
kept in the store, three at most, and it changes those and no others. So it can be said which
containers a write leaves alone, and the same write into two stores that mirror each other leaves
stores that do.
-/

namespace ResourceGraph

open ResourceGraph.Store

/-- What is edited as the element at a place. -/
def Edit.element (place : Nat) : Datum → Datum
  | .list items => startingFrom ((extended place items).getD place .null)
  | .table entries =>
    if entries.length ≤ place then .null
    else
      match entries.find? fun entry => Value.sameScalar entry.1 (.int place) with
      | none => .null
      | some (_, found) => startingFrom found
  | .str s =>
    match s.toList[place]? with
    | none => .null
    | some c => .str c.toString
  | _ => .null

namespace Store

/-- The share that reaching inside a datum passes through, if there is one. -/
def entered (s : Store) : Datum → List Share
  | .shared share =>
    match s.cell? share with
    | some (.data _) => [share]
    | _ => []
  | _ => []

/-- The shares that a write into parameters passes through. -/
def passed (s : Store) (params : Keyed Datum) : Address → List Share
  | .key _ => []
  | .member name _ => s.entered ((Keyed.get? params name).getD (.object []))
  | .append name => s.entered ((Keyed.get? params name).getD (.list []))
  | .elementMember name place _ =>
    let v := (Keyed.get? params name).getD (.list [])
    s.entered v ++ s.entered (Edit.element place (s.opened v))
  | .elementAppend name place inner =>
    let v := (Keyed.get? params name).getD (.list [])
    let element := Edit.element place (s.opened v)
    s.entered v ++ (s.entered element ++ s.entered (((s.opened element).member? inner).getD (.list [])))

theorem entered_cases (s : Store) (v : Datum) : s.entered v = [] ∨
    ∃ share content, v = .shared share ∧ s.cell? share = some (.data content) ∧ s.entered v = [share] ∧
      s.opened v = content := by
  cases v with
  | shared share =>
    cases found : s.cell? share with
    | none => exact .inl (by simp only [entered, found])
    | some c =>
      cases c with
      | query asked => exact .inl (by simp only [entered, found])
      | data content =>
        exact .inr ⟨share, content, rfl,
          found, by simp only [entered, found], by simp only [opened, found]⟩
  | _ => exact .inl rfl

private theorem within_of_entered {s : Store} {v : Datum} {share : Share}
    (member : share ∈ s.entered v) :
    s.Within share := by
  rcases s.entered_cases v with plain | ⟨inner, content, -, found, entered, -⟩
  · rw [plain] at member
    cases member
  · rw [entered] at member
    obtain rfl := List.mem_singleton.mp member
    exact lt_size_of_cell? found

private theorem within_of_passed {s : Store} {params : Keyed Datum} {address : Address} {share : Share}
    (member : share ∈ s.passed params address) : s.Within share := by
  cases address with
  | key name => cases member
  | member name inner => exact within_of_entered member
  | append name => exact within_of_entered member
  | elementMember name place inner =>
    rcases List.mem_append.mp member with outer | inside <;> exact within_of_entered ‹_›
  | elementAppend name place inner =>
    rcases List.mem_append.mp member with outer | inside
    · exact within_of_entered outer
    · rcases List.mem_append.mp inside with element | last <;> exact within_of_entered ‹_›

/-! ## What a write leaves alone -/

/-- From one store to the next, only the given places changed, and others were added. -/
structure Alters (touched : List Share) (s t : Store) : Prop where
  size : s.cells.size ≤ t.cells.size
  cells : ∀ share c, share ∉ touched → s.cell? share = some c → t.cell? share = some c
  expressions : t.expressions = s.expressions

variable {s t u : Store} {touched more : List Share}

theorem alters_lasting (touched : List Share) : Lasting (Alters touched) where
  refl _ := ⟨Nat.le_refl _, fun _ _ _ found => found, rfl⟩
  trans first second := ⟨Nat.le_trans first.size second.size,
    fun share c other found => second.cells share c other (first.cells share c other found),
    second.expressions.trans first.expressions⟩

theorem Adds.alters (adds : Adds s t) (touched : List Share) : Alters touched s t :=
  ⟨adds.size_le, fun share c _ found => adds.cells share.cell c found, adds.expressions⟩

theorem Alters.mono (alters : Alters touched s t) (fewer : ∀ share ∈ touched, share ∈ more) :
    Alters more s t :=
  ⟨alters.size, fun share c other => alters.cells share c fun member => other (fewer share member),
    alters.expressions⟩

/-- An edit changes only the places that it is said to pass through. -/
def Touches (passes : Store → Datum → List Share) (edit : Edit (StateM Store) Share) : Prop :=
  ∀ s v, Alters (passes s v) s ((edit v).run s).2

variable {passes : Store → Datum → List Share} {edit : Edit (StateM Store) Share}

private theorem replace_alters (share : Share) (content : Datum) :
    Alters [share] s ((replace share content).run s).2 := by
  refine ⟨Nat.le_of_eq (Array.size_setIfInBounds ..).symm, fun other c apart found => ?_, rfl⟩
  change (s.cells.setIfInBounds share.cell (.data content))[other.cell]? = some c
  rw [Array.getElem?_setIfInBounds_ne fun same =>
    apart (List.mem_singleton.mpr (congrArg Share.mk same.symm))]
  exact found

/-- To reach into a container is to edit it, to keep what is new inside, and to put it in its place. -/
theorem run_reach_container {share : Share} {content : Datum}
    (found : s.cell? share = some (.data content)) :
    (reach edit (.shared share)).run s =
      let edited := (edit content).run s
      let inside := (shareInside edited.1.after).run edited.2
      (⟨.shared share, edited.1.fault⟩, ((replace share inside.1).run inside.2).2) := by
  change StateT.run (match s.cell? share with
    | some (.data content) => _
    | _ => edit (.shared share)) s = _
  rw [found]
  rfl

/-- What is not the share of a container is edited as it is. -/
theorem run_reach_plain (edit : Edit (StateM Store) Share) {v : Datum} (plain : s.entered v = []) :
    (reach edit v).run s = (edit v).run s ∧ s.opened v = v := by
  cases v with
  | shared share =>
    change StateT.run (match s.cell? share with
      | some (.data content) => _
      | _ => edit (.shared share)) s = _ ∧ _
    cases found : s.cell? share with
    | none => exact ⟨rfl, by simp only [opened, found]⟩
    | some c =>
      cases c with
      | query asked => exact ⟨rfl, by simp only [opened, found]⟩
      | data content =>
        simp only [entered, found] at plain
        cases plain
  | _ => exact ⟨rfl, rfl⟩

theorem touches_reach {P : Store → Datum → List Share} (touches : Touches P edit) :
    Touches (fun s v => s.entered v ++ P s (s.opened v)) (reach edit) := by
  intro s v
  dsimp only
  rcases s.entered_cases v with plain | ⟨share, content, rfl, found, entered, opened⟩
  · obtain ⟨ran, opened⟩ := run_reach_plain edit plain
    rw [ran, opened, plain]
    exact touches s v
  · rw [run_reach_container found, entered, opened]
    have edited : Alters ([share] ++ P s content) s _ :=
      (touches s content).mono fun _ member => List.mem_append_right _ member
    have kept := (shareInside_adds ((edit content).run s).1.after ((edit content).run s).2).alters
      ([share] ++ P s content)
    refine (alters_lasting _).trans ((alters_lasting _).trans edited kept) ?_
    exact (replace_alters share _).mono fun _ member => List.mem_append_left _ member

/-- To reach into a datum for an edit that changes no store touches the container of the datum
alone. -/
theorem touches_reach_still (still : ∀ v s, ((edit v).run s).2 = s) :
    Touches (fun s v => s.entered v) (reach edit) := by
  have nothing : Touches (fun _ _ => []) edit := by
    intro s v
    rw [still]
    exact (alters_lasting _).refl s
  simpa using touches_reach nothing

private theorem touches_putMember (key : String) (value : Datum) :
    Touches (fun s v => s.entered v) (Edit.putMember reach key value) :=
  touches_reach_still fun v s => by cases v <;> rfl

private theorem touches_addElement (value : Datum) :
    Touches (fun s v => s.entered v) (Edit.addElement reach value) :=
  touches_reach_still fun v s => by cases v <;> rfl

private theorem touches_listMember (key : String) (touches : Touches passes edit) :
    Touches (fun s v => s.entered v ++ passes s (((s.opened v).member? key).getD (.list [])))
      (Edit.listMember reach key edit) := by
  refine touches_reach (P := fun s v => passes s ((v.member? key).getD (.list []))) fun s v => ?_
  cases v with
  | object fields => exact touches s _
  | table entries => exact touches s _
  | _ => exact (alters_lasting _).refl s

private theorem touches_atPlace (place : Nat) (touches : Touches passes edit) :
    Touches (fun s v => s.entered v ++ passes s (Edit.element place (s.opened v)))
      (Edit.atPlace reach place edit) := by
  refine touches_reach (P := fun s v => passes s (Edit.element place v)) fun s v => ?_
  cases v with
  | list items => exact touches s _
  | table entries =>
    dsimp only [Edit.element]
    split
    · exact (alters_lasting _).refl s
    · cases entries.find? fun entry => Value.sameScalar entry.1 (.int place) with
      | none => exact (alters_lasting _).refl s
      | some entry => exact touches s _
  | str text =>
    dsimp only [Edit.element]
    cases text.toList[place]? with
    | none => exact (alters_lasting _).refl s
    | some c => exact touches s _
  | _ => exact (alters_lasting _).refl s

/-- A write changes only the containers that it passes through. -/
theorem write_alters (address : Address) (value : Datum) (params : Keyed Datum) :
    Alters (s.passed params address) s ((write address value params).run s).2 := by
  cases address with
  | key name => exact (alters_lasting _).refl s
  | member name inner => exact touches_putMember inner value s _
  | append name => exact touches_addElement value s _
  | elementMember name place inner => exact touches_atPlace place (touches_putMember inner value) s _
  | elementAppend name place inner =>
    exact touches_atPlace place (touches_listMember inner (touches_addElement value)) s _

end Store

/-! ## The same write in two stores -/

namespace Relocation

variable {m : Relocation} {s t : Store}

theorem Fits.entered (fits : m.Fits s t) (v : Datum) :
    t.entered (m.moved v) = (s.entered v).map m.place := by
  cases v with
  | shared share =>
    simp only [moved_shared, Store.entered, fits.cells]
    cases s.cell? share with
    | none => rfl
    | some c => cases c <;> rfl
  | _ => simp [Store.entered]

private theorem startingFrom_moved (v : Datum) :
    Edit.startingFrom (m.moved v) = m.moved (Edit.startingFrom v) := by
  cases v <;> simp [Edit.startingFrom]

private theorem extended_moved (place : Nat) (items : List Datum) :
    Edit.extended place (items.map m.moved) = (Edit.extended place items).map m.moved := by
  simp [Edit.extended]

private theorem getD_moved (items : List Datum) (place : Nat) :
    (items.map m.moved).getD place .null = m.moved (items.getD place .null) := by
  rw [List.getD_eq_getElem?_getD, List.getD_eq_getElem?_getD, List.getElem?_map]
  cases items[place]? <;> rfl

theorem optionGetD_moved (found : Option Datum) {fresh : Datum} (blank : m.moved fresh = fresh) :
    (found.map m.moved).getD fresh = m.moved (found.getD fresh) := by
  cases found with
  | none => exact blank.symm
  | some v => rfl

private theorem element_moved (place : Nat) (v : Datum) :
    Edit.element place (m.moved v) = m.moved (Edit.element place v) := by
  cases v with
  | list items =>
    rw [moved_list]
    dsimp only [Edit.element]
    rw [extended_moved, getD_moved, startingFrom_moved]
  | table entries =>
    rw [moved_table]
    dsimp only [Edit.element]
    rw [List.length_map, m.find?_moved fun entry => m.sameScalar_moved entry.1 (.int place)]
    split
    · rfl
    · cases entries.find? fun entry => Value.sameScalar entry.1 (.int place) with
      | none => rfl
      | some entry => exact startingFrom_moved _
  | object fields => simp [Edit.element]
  | str text =>
    dsimp only [moved_str, Edit.element]
    cases text.toList[place]? <;> rfl
  | _ => rfl

/-- The same write passes through what the shares of the other write are moved to. -/
theorem Fits.passed (fits : m.Fits s t) (params : Keyed Datum) (address : Address) :
    t.passed (params.map m.movedField) address = (s.passed params address).map m.place := by
  have under : ∀ name (fresh : Datum), m.moved fresh = fresh →
      (Keyed.get? (params.map m.movedField) name).getD fresh =
        m.moved ((Keyed.get? params name).getD fresh) := by
    intro name fresh blank
    rw [get?_moved, optionGetD_moved _ blank]
  cases address with
  | key name => rfl
  | member name inner =>
    dsimp only [Store.passed]
    rw [under name _ (by simp), fits.entered]
  | append name =>
    dsimp only [Store.passed]
    rw [under name _ (by simp), fits.entered]
  | elementMember name place inner =>
    dsimp only [Store.passed]
    rw [under name _ (by simp), fits.entered, fits.opened, element_moved, fits.entered, List.map_append]
  | elementAppend name place inner =>
    dsimp only [Store.passed]
    rw [under name _ (by simp), fits.entered, fits.opened, element_moved, fits.entered, fits.opened,
      member?_moved,
      optionGetD_moved _ (by simp), fits.entered, List.map_append, List.map_append]

/-! ### Keeping containers -/

namespace Even

variable {ε : Type}

theorem lifted {α β : Type} {f : α → β} {a : α} {b : β} (same : b = f a) :
    m.Even f (ExceptT.lift (pure a) : ExceptT ε (StateM Store) α) (ExceptT.lift (pure b)) := by
  subst same
  exact done a

theorem liftedSeq {α β γ δ : Type} {f : α → β} {g : γ → δ} {work : StateM Store α}
    {work' : StateM Store β} {next : α → StateM Store γ} {next' : β → StateM Store δ}
    (first : m.Even f (ExceptT.lift work : ExceptT ε (StateM Store) α) (ExceptT.lift work'))
    (rest : ∀ a, m.Even g (ExceptT.lift (next a) : ExceptT ε (StateM Store) γ)
      (ExceptT.lift (next' (f a)))) :
    m.Even g (ExceptT.lift (work >>= next) : ExceptT ε (StateM Store) γ)
      (ExceptT.lift (work' >>= next')) := by
  change m.Even g (ExceptT.lift work >>= fun a => ExceptT.lift (next a))
    (ExceptT.lift work' >>= fun b => ExceptT.lift (next' b))
  exact seq first rest

private theorem keep {content content' : Datum} (same : content' = m.moved content) :
    m.Even m.moved (ExceptT.lift (Store.keep content) : ExceptT ε (StateM Store) Datum)
      (ExceptT.lift (Store.keep content')) := by
  subst same
  exact keepCell nofun

mutual

theorem share (v : Datum) : m.Even m.moved
    (ExceptT.lift (Store.share v) : ExceptT ε (StateM Store) Datum)
    (ExceptT.lift (Store.share (m.moved v))) := by
  cases v with
  | list items =>
    rw [moved_list]
    exact liftedSeq (shareItems items) fun kept => keep (m.moved_list kept).symm
  | object fields =>
    rw [moved_object]
    exact liftedSeq (shareFields fields) fun kept => keep (m.moved_object kept).symm
  | table entries =>
    rw [moved_table]
    exact liftedSeq (shareEntries entries) fun kept => keep (m.moved_table kept).symm
  | _ => exact lifted rfl

theorem shareItems (items : List Datum) :
    m.Even (List.map m.moved)
      (ExceptT.lift (Store.shareItems items) : ExceptT ε (StateM Store) (List Datum))
      (ExceptT.lift (Store.shareItems (items.map m.moved))) := by
  cases items with
  | nil => exact lifted rfl
  | cons v rest =>
    exact liftedSeq (share v) fun first => liftedSeq (shareItems rest) fun others => lifted rfl

theorem shareFields (fields : List (String × Datum)) :
    m.Even (List.map m.movedField)
      (ExceptT.lift (Store.shareFields fields) : ExceptT ε (StateM Store) (List (String × Datum)))
      (ExceptT.lift (Store.shareFields (fields.map m.movedField))) := by
  cases fields with
  | nil => exact lifted rfl
  | cons entry rest =>
    exact liftedSeq (share entry.2) fun first => liftedSeq (shareFields rest) fun others => lifted rfl

theorem shareEntries (entries : List (Datum × Datum)) :
    m.Even (List.map m.movedEntry)
      (ExceptT.lift (Store.shareEntries entries) : ExceptT ε (StateM Store) (List (Datum × Datum)))
      (ExceptT.lift (Store.shareEntries (entries.map m.movedEntry))) := by
  cases entries with
  | nil => exact lifted rfl
  | cons entry rest =>
    exact liftedSeq (share entry.2) fun first => liftedSeq (shareEntries rest) fun others => lifted rfl

end

private theorem shareInside (content : Datum) :
    m.Even m.moved (ExceptT.lift (Store.shareInside content) : ExceptT ε (StateM Store) Datum)
      (ExceptT.lift (Store.shareInside (m.moved content))) := by
  cases content with
  | list items =>
    rw [moved_list]
    exact liftedSeq (shareItems items) fun kept => lifted (m.moved_list kept).symm
  | object fields =>
    rw [moved_object]
    exact liftedSeq (shareFields fields) fun kept => lifted (m.moved_object kept).symm
  | table entries =>
    rw [moved_table]
    exact liftedSeq (shareEntries entries) fun kept => lifted (m.moved_table kept).symm
  | _ => exact lifted rfl

end Even

/-- To keep what is inside of a datum leaves a closed store, and gives what is there. -/
theorem closed_of_shareInside {v : Datum} (closed : s.Closed) (within : v.Every s.Within) :
    ((Store.shareInside v).run s).2.Closed ∧
      ((Store.shareInside v).run s).1.Every ((Store.shareInside v).run s).2.Within := by
  let work : ExceptT Failure (StateM Store) Datum := ExceptT.lift (Store.shareInside v)
  have more := (shareInside_adds v s).size_le
  have stays : ∀ share, s.Within share → (beyond (runIn work s).2.cells.size).place share = share :=
    fun share within => place_beyond.mpr (Nat.lt_of_lt_of_le within more)
  have even : (beyond (runIn work s).2.cells.size).Even _ work _ := Even.shareInside v
  rw [moved_eq_self _ (within.mono stays)] at even
  obtain ⟨left, gives⟩ := closed_of_even (x := work) closed even
  exact ⟨left, gives _ rfl⟩

theorem Fits.replace {share : Share} (fits : m.Fits s t) (within : s.Within share) (content : Datum) :
    m.Fits ((Store.replace share content).run s).2
      ((Store.replace (m.place share) (m.moved content)).run t).2 := by
  obtain ⟨before, found⟩ := cell?_of_within within
  have there : t.cell? (m.place share) = some (m.movedCell before) := by
    rw [fits.cells, found]
    rfl
  have self : ∀ {u : Store} {share : Share} {c : Cell} (content : Datum), u.cell? share = some c →
      ((Store.replace share content).run u).2.cell? share = some (.data content) := by
    intro u share c content found
    exact Array.getElem?_setIfInBounds_self_of_lt (lt_size_of_cell? found)
  have other : ∀ {u : Store} {share other : Share} (content : Datum), other ≠ share →
      ((Store.replace share content).run u).2.cell? other = u.cell? other := by
    intro u share other content apart
    exact Array.getElem?_setIfInBounds_ne fun same => apart (congrArg Share.mk same.symm)
  refine ⟨fun place => ?_, fun place asked kept => ?_, fun k below => ?_⟩
  · by_cases same : place = share
    · subst same
      rw [self content found, self _ there]
      rfl
    · rw [other content same, other _ fun moved => same (m.injective moved)]
      exact fits.cells place
  · by_cases same : place = share
    · subst same
      rw [self content found] at kept
      cases kept
    · rw [other content same] at kept
      exact fits.queries place asked kept
  · have sizes : ∀ (u : Store) share content, ((Store.replace share content).run u).2.cells.size =
        u.cells.size :=
      fun u share content => Array.size_setIfInBounds ..
    rw [sizes] at below ⊢
    rw [sizes]
    exact fits.new k below

private theorem closed_of_replace {share : Share} {content : Datum} (closed : s.Closed)
    (within : content.Every s.Within) :
    ((Store.replace share content).run s).2.Closed := by
  have more : ∀ place, s.Within place → ((Store.replace share content).run s).2.Within place :=
    within_mono (Nat.le_of_eq (Array.size_setIfInBounds ..).symm)
  have before : ∀ place c, ((Store.replace share content).run s).2.cell? place = some c →
      c = .data content ∨ s.cell? place = some c := by
    intro place c found
    change (s.cells.setIfInBounds share.cell (.data content))[place.cell]? = some c at found
    rw [Array.getElem?_setIfInBounds] at found
    split at found
    · split at found
      · exact .inl (Option.some.inj found).symm
      · cases found
    · exact .inr found
  refine ⟨fun place inside found => ?_, fun place asked found => ?_,
    fun text asked known => (closed.expressions text asked known).mono more⟩
  · rcases before place _ found with same | kept
    · cases same
      exact within.mono more
    · exact (closed.data place inside kept).mono more
  · rcases before place _ found with same | kept
    · cases same
    · exact (closed.queries place asked kept).mono more

/-! ### Writing -/

/-- Two edits left stores that fit, and the same up to a map. -/
structure Echo {α β : Type} (m : Relocation) (f : α → β) (holds : (Share → Prop) → α → Prop)
    (x : Edited α × Store) (y : Edited β × Store) : Prop where
  fits : m.Fits x.2 y.2
  closed : x.2.Closed
  same : y.1 = x.1.map f
  within : holds x.2.Within x.1.after

theorem Echo.map {α β γ δ : Type} {f : α → β} {g : γ → δ} {holds : (Share → Prop) → α → Prop}
    {G : (Share → Prop) → γ → Prop} {x : Edited α × Store} {y : Edited β × Store} {k : α → γ} {l : β → δ}
    (echo : m.Echo f holds x y) (alike : ∀ a, l (f a) = g (k a))
    (held : ∀ a, holds x.2.Within a → G x.2.Within (k a)) :
    m.Echo g G (x.1.map k, x.2) (y.1.map l, y.2) := by
  refine ⟨echo.fits, echo.closed, ?_, held _ echo.within⟩
  rw [echo.same]
  exact congrArg (Edited.mk · x.1.fault) (alike x.1.after)

/-- The edits leave stores that fit, wherever the first one has at least so many places, and has
what it edits. -/
def Echoes (m : Relocation) (low : Nat) (edit edit' : Edit (StateM Store) Share) : Prop :=
  ∀ s t v, m.Fits s t → s.Closed → low ≤ s.cells.size → v.Every s.Within →
    ((edit v).run s).2.cells.size ≤ m.limit →
      m.Echo m.moved Value.Every ((edit v).run s) ((edit' (m.moved v)).run t)

variable {low : Nat} {edit edit' : Edit (StateM Store) Share}

theorem echoes_reach (echoes : m.Echoes low edit edit')
    (grows : ∀ v s, s.cells.size ≤ ((edit v).run s).2.cells.size) :
    m.Echoes low (reach edit) (reach edit') := by
  intro s t v fits closed more within room
  rcases s.entered_cases v with plain | ⟨share, content, rfl, found, -, -⟩
  · have plain' : t.entered (m.moved v) = [] := by rw [fits.entered, plain]; rfl
    rw [(run_reach_plain edit plain).1] at room ⊢
    rw [(run_reach_plain edit' plain').1]
    exact echoes s t v fits closed more within room
  · have found' : t.cell? (m.place share) = some (.data (m.moved content)) := by
      rw [fits.cells, found]
      rfl
    rw [moved_shared, run_reach_container found']
    rw [run_reach_container found] at room ⊢
    have kept := shareInside_adds ((edit content).run s).1.after ((edit content).run s).2
    have sized : ∀ (u : Store) share content, ((Store.replace share content).run u).2.cells.size =
        u.cells.size :=
      fun u share content => Array.size_setIfInBounds ..
    dsimp only at room ⊢
    rw [sized] at room
    have inner := echoes s t content fits closed more (closed.data share content found)
      (Nat.le_trans kept.size_le room)
    obtain ⟨left, gives⟩ := closed_of_shareInside inner.closed inner.within
    obtain ⟨fitted, again⟩ := (Even.shareInside ((edit content).run s).1.after :
      m.Even m.moved (ExceptT.lift _ : ExceptT Failure (StateM Store) Datum) _).same _ _ inner.fits room
    have still : ((shareInside ((edit content).run s).1.after).run
        ((edit content).run s).2).2.Within share :=
      within_mono (Nat.le_trans (grows content s) kept.size_le) share (lt_size_of_cell? found)
    have same : ((shareInside (m.moved ((edit content).run s).1.after)).run
        ((edit' (m.moved content)).run t).2).1 =
          m.moved ((shareInside ((edit content).run s).1.after).run
          ((edit content).run s).2).1 := Except.ok.inj again
    rw [inner.same]
    dsimp only [Edited.map]
    rw [same]
    refine ⟨fitted.replace still _, closed_of_replace left gives, rfl, ?_⟩
    exact within_mono (Nat.le_of_eq (sized _ _ _).symm) share still

/-- An edit that changes no store is the same in two stores, if it comes to the same. -/
theorem echoes_reach_still (still : ∀ v s, ((edit v).run s).2 = s)
    (still' : ∀ v s, ((edit' v).run s).2 = s)
    (same : ∀ v s t, ((edit' (m.moved v)).run t).1 = ((edit v).run s).1.map m.moved)
    (held : ∀ v s, low ≤ s.cells.size → v.Every s.Within → ((edit v).run s).1.after.Every s.Within) :
    m.Echoes low (reach edit) (reach edit') := by
  refine echoes_reach (fun s t v fits closed more within room => ?_) fun v s =>
    Nat.le_of_eq (by rw [still])
  refine ⟨?_, ?_, same v s t, ?_⟩
  · rw [still, still']
    exact fits
  · rw [still]
    exact closed
  · rw [still]
    exact held v s more within

private theorem withMember_moved (v : Datum) (key : String) (value : Datum) :
    (m.moved v).withMember key (m.moved value) = m.moved (v.withMember key value) := by
  cases v with
  | object fields =>
    rw [moved_object, Value.withMember_object, Value.withMember_object, moved_object, put_moved]
  | table entries =>
    rw [moved_table]
    unfold Value.withMember
    dsimp only
    have texts : ∀ entry, Value.isText key (m.movedEntry entry).1 = Value.isText key entry.1 :=
      fun entry => m.isText_moved key entry.1
    rw [List.any_map]
    simp only [Function.comp_def, texts]
    split
    · rw [moved_table, List.map_map, List.map_map]
      refine congrArg Value.table (List.map_congr_left fun entry _ => ?_)
      simp only [Function.comp_def, texts]
      split <;> rfl
    · rw [moved_table, List.map_append]
      rfl
  | list items => simp [Value.withMember]
  | _ => rfl

private theorem putAt_moved (place : Nat) (v : Datum) (entries : List (Datum × Datum)) :
    Edit.putAt place (m.moved v) (entries.map m.movedEntry) =
      (Edit.putAt place v entries).map m.movedEntry := by
  unfold Edit.putAt
  rw [List.map_map, List.map_map]
  refine List.map_congr_left fun entry _ => ?_
  have same : Value.sameScalar (m.movedEntry entry).1 (.int place) =
      Value.sameScalar entry.1 (.int place) :=
    m.sameScalar_moved entry.1 (.int place)
  simp only [Function.comp_apply, same]
  split <;> rfl

private theorem echoes_putMember (key : String) {value : Datum}
    (given : value.Every fun share => share.cell < low) :
    m.Echoes low (Edit.putMember reach key value) (Edit.putMember reach key (m.moved value)) := by
  refine echoes_reach_still (fun v s => by cases v <;> rfl) (fun v s => by cases v <;> rfl)
    (fun v s t => ?_) fun v s more within => ?_
  · cases v with
    | object fields =>
      rw [moved_object]
      exact congrArg (Edited.mk · none) ((congrArg Value.object (m.put_moved fields key value)).trans
        (m.moved_object _).symm)
    | table entries =>
      have same := m.withMember_moved (.table entries) key value
      rw [moved_table] at same ⊢
      exact congrArg (Edited.mk · none) same
    | list items =>
      rw [moved_list]
      exact congrArg (Edited.mk · (some .noMembers)) (m.moved_list items).symm
    | _ => rfl
  · have there : value.Every s.Within := given.mono fun share below => Nat.lt_of_lt_of_le below more
    cases v with
    | object fields => exact Value.every_object.mpr (every_put (Value.every_object.mp within) there)
    | table entries => exact every_withMember within there
    | _ => exact within

private theorem echoes_addElement {value : Datum} (given : value.Every fun share => share.cell < low) :
    m.Echoes low (Edit.addElement reach value) (Edit.addElement reach (m.moved value)) := by
  refine echoes_reach_still (fun v s => by cases v <;> rfl) (fun v s => by cases v <;> rfl)
    (fun v s t => ?_) fun v s more within => ?_
  · cases v with
    | list items =>
      rw [moved_list]
      have same : Value.list (items.map m.moved ++ [m.moved value]) =
          m.moved (.list (items ++ [value])) := by simp
      exact congrArg (Edited.mk · none) same
    | object fields =>
      rw [moved_object]
      exact congrArg (Edited.mk · (some .noEnd)) (m.moved_object fields).symm
    | table entries =>
      rw [moved_table]
      exact congrArg (Edited.mk · (some .noEnd)) (m.moved_table entries).symm
    | _ => rfl
  · have there : value.Every s.Within := given.mono fun share below => Nat.lt_of_lt_of_le below more
    cases v with
    | list items =>
      refine Value.every_list.mpr fun v member => ?_
      rcases List.mem_append.mp member with before | new
      · exact Value.every_list.mp within v before
      · obtain rfl := List.mem_singleton.mp new
        exact there
    | _ => exact within

/-- An edit that stops leaves everything as it is. -/
theorem echo_stop {v : Datum} (fits : m.Fits s t) (closed : s.Closed) (within : v.Every s.Within)
    (fault : WriteFault) :
    m.Echo m.moved Value.Every
      ((Edit.stop v fault : StateM Store (Edited Datum)).run s)
      ((Edit.stop (m.moved v) fault : StateM Store (Edited Datum)).run t) :=
  ⟨fits, closed, rfl, within⟩

private theorem echo_underKey {key : String} {fresh : Datum} {fields : Keyed Datum}
    (echoes : m.Echoes low edit edit') (grows : ∀ v s, s.cells.size ≤ ((edit v).run s).2.cells.size)
    (blank : m.moved fresh = fresh) (fits : m.Fits s t) (closed : s.Closed)
    (more : low ≤ s.cells.size) (within : ∀ entry ∈ fields, entry.2.Every s.Within)
    (started : fresh.Every s.Within)
    (room : ((Edit.underKey key fresh edit fields).run s).2.cells.size ≤ m.limit) :
    m.Echo (List.map m.movedField) (fun P fields => ∀ entry ∈ fields, entry.2.Every P)
      ((Edit.underKey key fresh edit fields).run s)
      ((Edit.underKey key fresh edit' (fields.map m.movedField)).run t) := by
  have start : ((Keyed.get? fields key).getD fresh).Every s.Within :=
    every_getD (fun v there => within _ (Keyed.mem_of_get? there)) started
  have echo := echoes s t _ fits closed more start room
  rw [← optionGetD_moved _ blank, ← get?_moved] at echo
  refine echo.map (fun v => m.put_moved fields key v) fun v left => ?_
  exact every_put (fun entry member => (within entry member).mono (within_mono (grows _ s))) left

private theorem echoes_listMember (key : String) (echoes : m.Echoes low edit edit')
    (grows : ∀ v s, s.cells.size ≤ ((edit v).run s).2.cells.size) :
    m.Echoes low (Edit.listMember reach key edit) (Edit.listMember reach key edit') := by
  refine echoes_reach (fun s t v fits closed more within room => ?_) fun v s => ?_
  · cases v with
    | object fields =>
      rw [moved_object]
      have echo : m.Echo _ _ ((Edit.underKey key (.list []) edit fields).run s) _ :=
        echo_underKey echoes grows (by simp) fits closed more (Value.every_object.mp within)
          (by simp) room
      exact echo.map (fun fields => (m.moved_object fields).symm) fun fields left =>
        Value.every_object.mpr left
    | table entries =>
      have start : (((Value.table entries).member? key).getD (.list [])).Every s.Within :=
        every_getD (fun v there => every_member? within there) (by simp)
      have echo := echoes s t _ fits closed more start room
      rw [← optionGetD_moved _ (by simp), ← member?_moved] at echo
      have mapped := echo.map (g := m.moved) (G := Value.Every)
        (k := fun v => (Value.table entries).withMember key v)
        (fun v => m.withMember_moved (.table entries) key v)
        fun v left => every_withMember (within.mono (within_mono (grows _ s))) left
      rw [moved_table] at mapped ⊢
      exact mapped
    | list items =>
      have stop := echo_stop fits closed within .noLookup
      rw [moved_list] at stop ⊢
      exact stop
    | _ => exact echo_stop fits closed within .noLookup
  · cases v with
    | object fields => exact grows _ s
    | table entries => exact grows _ s
    | _ => exact Nat.le_refl _

private theorem echoes_atPlace (place : Nat) (echoes : m.Echoes low edit edit')
    (grows : ∀ v s, s.cells.size ≤ ((edit v).run s).2.cells.size) :
    m.Echoes low (Edit.atPlace reach place edit) (Edit.atPlace reach place edit') := by
  refine echoes_reach (fun s t v fits closed more within room => ?_) fun v s => ?_
  · cases v with
    | list items =>
      have long := every_extended place (Value.every_list.mp within)
      have start : (Edit.startingFrom ((Edit.extended place items).getD place .null)).Every
          s.Within := by
        refine every_startingFrom ?_
        rw [List.getD_eq_getElem?_getD]
        exact every_getD (fun v there => long v (List.mem_of_getElem? there)) trivial
      have echo := echoes s t _ fits closed more start room
      rw [← startingFrom_moved, ← getD_moved, ← extended_moved] at echo
      have mapped := echo.map (g := m.moved) (G := Value.Every)
        (k := fun v => .list ((Edit.extended place items).set place v))
        (l := fun v => .list ((Edit.extended place (items.map m.moved)).set place v))
        (fun v => by rw [extended_moved, moved_list, List.map_set])
        fun v left => Value.every_list.mpr fun w member => by
          rcases List.mem_or_eq_of_mem_set member with before | rfl
          · exact (long w before).mono (within_mono (grows _ s))
          · exact left
      rw [moved_list]
      exact mapped
    | object fields =>
      have stop :=
        echo_stop fits closed within (if fields.length ≤ place then .noEnd else .noSuchElement)
      rw [moved_object] at stop ⊢
      dsimp only
      rw [List.length_map]
      exact stop
    | table entries =>
      have stop := echo_stop fits closed within
      rw [moved_table] at stop ⊢
      dsimp only at room ⊢
      rw [List.length_map, m.find?_moved fun entry => m.sameScalar_moved entry.1 (.int place)]
      split
      · exact stop .noEnd
      · next few =>
        rw [if_neg few] at room
        cases there : entries.find? fun entry => Value.sameScalar entry.1 (.int place) with
        | none => exact stop .noSuchElement
        | some entry =>
          rw [there] at room
          have inside := Value.every_table.mp within entry (List.mem_of_find?_eq_some there)
          have echo := echoes s t _ fits closed more (every_startingFrom inside.2) room
          rw [← startingFrom_moved] at echo
          have mapped := echo.map (g := m.moved) (G := Value.Every)
            (k := fun v => .table (Edit.putAt place v entries))
            (l := fun v => .table (Edit.putAt place v (entries.map m.movedEntry)))
            (fun v => by rw [putAt_moved, moved_table])
            fun v left => Value.every_table.mpr fun other member => by
              obtain ⟨before, listed, rfl⟩ := List.mem_map.mp member
              have more := within_mono (grows (Edit.startingFrom entry.2) s)
              have kept := Value.every_table.mp (within.mono more) before listed
              split
              · exact ⟨kept.1, left⟩
              · exact kept
          exact mapped
    | str text =>
      dsimp only [moved_str] at room ⊢
      cases there : text.toList[place]? with
      | none => exact echo_stop (v := .str text) fits closed trivial .noEnd
      | some c =>
        rw [there] at room
        have echo := echoes s t (.str c.toString) fits closed more trivial room
        exact echo.map (g := m.moved) (G := Value.Every) (fun _ => rfl) fun _ _ => trivial
    | _ => exact echo_stop fits closed within .noElements
  · cases v with
    | list items => exact grows _ s
    | table entries =>
      dsimp only
      split
      · exact Nat.le_refl _
      · cases entries.find? fun entry => Value.sameScalar entry.1 (.int place) with
        | none => exact Nat.le_refl _
        | some entry => exact grows _ s
    | str text =>
      dsimp only
      cases text.toList[place]? with
      | none => exact Nat.le_refl _
      | some c => exact grows _ s
    | _ => exact Nat.le_refl _

/-- The same write into stores that fit leaves stores that fit. -/
theorem write_echo (address : Address) {value : Datum} {params : Keyed Datum} (fits : m.Fits s t)
    (closed : s.Closed) (given : value.Every s.Within) (held : ∀ entry ∈ params, entry.2.Every s.Within)
    (room : ((write address value params).run s).2.cells.size ≤ m.limit) :
    m.Echo (List.map m.movedField) (fun P params => ∀ entry ∈ params, entry.2.Every P)
      ((write address value params).run s)
      ((write address (m.moved value) (params.map m.movedField)).run t) := by
  have puts : ∀ inner v s, s.cells.size ≤ ((Edit.putMember reach inner value v).run s).2.cells.size :=
    fun inner v s => (touches_putMember inner value s v).size
  have adds : ∀ v s, s.cells.size ≤ ((Edit.addElement reach value v).run s).2.cells.size :=
    fun v s => (touches_addElement value s v).size
  have more := Nat.le_refl s.cells.size
  cases address with
  | key name =>
    refine ⟨fits, closed, ?_, every_put held given⟩
    exact congrArg (Edited.mk · none) (m.put_moved params name value)
  | member name inner =>
    exact echo_underKey (echoes_putMember inner given) (puts inner) (by simp) fits closed more held
      (by simp) room
  | append name =>
    exact echo_underKey (echoes_addElement given) adds (by simp) fits closed more held (by simp) room
  | elementMember name place inner =>
    exact echo_underKey (echoes_atPlace place (echoes_putMember inner given) (puts inner))
      (fun v s => (touches_atPlace place (touches_putMember inner value) s v).size) (by simp) fits
      closed more held
      (by simp) room
  | elementAppend name place inner =>
    have inside := echoes_listMember (m := m) inner (echoes_addElement given) adds
    exact echo_underKey (echoes_atPlace place inside
        fun v s => (touches_listMember inner (touches_addElement value) s v).size)
      (fun v s => (touches_atPlace place (touches_listMember inner (touches_addElement value)) s v).size)
      (by simp) fits closed more held (by simp) room

/-- A write that passes through nothing which is the same in both stores leaves stores that mirror
each other. -/
theorem Mirrors.write {kept : Share → Prop} {origin : Store} (address : Address) {value : Datum}
    {params : Keyed Datum} (mirrors : m.Mirrors kept origin s t) (given : value.Every s.Within)
    (held : ∀ entry ∈ params, entry.2.Every s.Within)
    (room : ((Store.write address value params).run s).2.cells.size ≤ m.limit)
    (spares : ∀ share ∈ s.passed params address, ¬ kept share) :
    m.Mirrors kept origin ((Store.write address value params).run s).2
        ((Store.write address (m.moved value) (params.map m.movedField)).run t).2 ∧
      ((Store.write address (m.moved value) (params.map m.movedField)).run t).1 =
        ((Store.write address value params).run s).1.map (List.map m.movedField) ∧
      ∀ entry ∈ ((Store.write address value params).run s).1.after,
        entry.2.Every ((Store.write address value params).run s).2.Within := by
  have echo := write_echo address mirrors.fits mirrors.closed given held room
  have alters := write_alters (s := s) address value params
  have alters' := write_alters (s := t) address (m.moved value) (params.map m.movedField)
  rw [mirrors.fits.passed] at alters'
  refine ⟨mirrors.onward echo.fits echo.closed alters.size alters.expressions alters'.expressions room
    fun i c found => ?_, echo.same, echo.within⟩
  refine alters'.cells ⟨i⟩ c (fun member => ?_) (mirrors.since i c found)
  obtain ⟨share, through, placed⟩ := List.mem_map.mp member
  have beyond := mirrors.apart share (within_of_passed through) (spares share through)
  rw [placed] at beyond
  exact absurd (Array.getElem?_eq_some_iff.mp found).1 (Nat.not_lt.mpr beyond)

end Relocation

end ResourceGraph
