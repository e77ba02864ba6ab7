import ResourceGraph.Proofs.Evaluation
import ResourceGraph.Proofs.Relocation
import ResourceGraph.Proofs.SortedImage

/-!
Evaluation does not depend on where containers are kept. Asked of what a relocation moved, in the
store that it moved it to, a query gives what the relocation moves its result to, or fails in the
same way; and afterwards the two stores fit again. Each function that evaluation is made of is shown
to do so from the functions that it is made of itself, as it is shown to add to a store.
-/

namespace ResourceGraph

open Store ResourceGraph.Path

/-- Two pieces of work only add to stores; done on stores that fit, they leave stores that fit and
come to the same, up to a map of their results. -/
structure Relocation.Even {ε α β : Type} (m : Relocation) (f : α → β) (x : ExceptT ε (StateM Store) α)
    (y : ExceptT ε (StateM Store) β) : Prop where
  adds : Keeps Adds x
  same : ∀ s t, m.Fits s t → (runIn x s).2.cells.size ≤ m.limit →
    m.Fits (runIn x s).2 (runIn y t).2 ∧ (runIn y t).1 = (runIn x s).1.map f

theorem Store.Adds.size_le {s t : Store} (adds : Adds s t) : s.cells.size ≤ t.cells.size := by
  by_contra fewer
  have last := adds.cells t.cells.size _ (Array.getElem?_eq_getElem (Nat.lt_of_not_le fewer))
  rw [Array.getElem?_eq_none (Nat.le_refl _)] at last
  cases last

namespace Relocation

variable {m : Relocation}

/-- What is kept next is kept next on both sides. -/
theorem Fits.push {s t : Store} {c : Cell} (fits : m.Fits s t) (room : s.cells.size < m.limit)
    (leaves : ∀ asked, c = .query asked → m.Leaves asked) :
    m.Fits { s with cells := s.cells.push c } { t with cells := t.cells.push (m.movedCell c) } := by
  have next : m.place ⟨s.cells.size⟩ = ⟨t.cells.size⟩ := fits.new 0 room
  refine ⟨fun share => ?_, fun share asked found => ?_, fun k below => ?_⟩
  · change (t.cells.push (m.movedCell c))[(m.place share).cell]? =
      ((s.cells.push c)[share.cell]?).map m.movedCell
    rw [Array.getElem?_push, Array.getElem?_push]
    by_cases last : share = ⟨s.cells.size⟩
    · subst last
      rw [next, if_pos rfl, if_pos rfl]
      rfl
    · have other : (m.place share).cell ≠ t.cells.size := by
        intro same
        exact last (m.injective ((congrArg Share.mk same).trans next.symm))
      rw [if_neg other, if_neg fun same => last (congrArg Share.mk same)]
      exact fits.cells share
  · change (s.cells.push c)[share.cell]? = some (.query asked) at found
    rw [Array.getElem?_push] at found
    split at found
    · exact leaves asked (Option.some.inj found)
    · exact fits.queries share asked found
  · have later := fits.new (k + 1) (by simp only [Array.size_push] at below; omega)
    simp only [Array.size_push]
    rw [Nat.add_right_comm, Nat.add_assoc, Nat.add_right_comm, Nat.add_assoc]
    exact later

namespace Even

variable {ε α β γ δ : Type} {f : α → β} {g : γ → δ}

theorem done (a : α) : m.Even f (pure a : ExceptT ε (StateM Store) α) (pure (f a)) :=
  ⟨.pure adds_lasting a, fun _ _ fits _ => ⟨fits, rfl⟩⟩

private theorem stop (e : ε) : m.Even f (throw e : ExceptT ε (StateM Store) α) (throw e) :=
  ⟨.throw adds_lasting e, fun _ _ fits _ => ⟨fits, rfl⟩⟩

theorem seq {x : ExceptT ε (StateM Store) α} {y : ExceptT ε (StateM Store) β}
    {next : α → ExceptT ε (StateM Store) γ} {next' : β → ExceptT ε (StateM Store) δ}
    (first : m.Even f x y)
    (rest : ∀ a, m.Even g (next a) (next' (f a))) : m.Even g (x >>= next) (y >>= next') := by
  refine ⟨.bind adds_lasting first.adds fun a => (rest a).adds, fun s t fits small => ?_⟩
  rw [runIn_bind] at small ⊢
  rw [runIn_bind]
  have firstly := first.same s t fits
  rcases ran : runIn x s with ⟨result, mid⟩
  rcases ran' : runIn y t with ⟨result', mid'⟩
  rw [ran] at small firstly
  rw [ran'] at firstly
  cases result with
  | error e =>
    obtain ⟨fits', same⟩ := firstly small
    cases same
    exact ⟨fits', rfl⟩
  | ok a =>
    obtain ⟨fits', same⟩ := firstly (Nat.le_trans ((rest a).adds mid).size_le small)
    cases same
    exact (rest a).same mid mid' fits' small

/-- What both sides look up in their stores may decide how they go on. -/
theorem look {next : Store → ExceptT ε (StateM Store) γ} {next' : Store → ExceptT ε (StateM Store) δ}
    (adds : ∀ s, Keeps Adds (next s)) (rest : ∀ s t, m.Fits s t → m.Even g (next s) (next' t)) :
    m.Even g (get >>= next) (get >>= next') :=
  ⟨.bind adds_lasting (.get adds_lasting) adds, fun s t fits => (rest s t fits).same s t fits⟩

theorem mapM {step : α → ExceptT ε (StateM Store) γ} {step' : β → ExceptT ε (StateM Store) δ}
    (items : List α) (each : ∀ a ∈ items, m.Even g (step a) (step' (f a))) :
    m.Even (List.map g) (items.mapM step) ((items.map f).mapM step') := by
  induction items with
  | nil => exact done []
  | cons a rest ih =>
    rw [List.map_cons, List.mapM_cons, List.mapM_cons]
    exact seq (each a List.mem_cons_self) fun c =>
      seq (ih fun b member => each b (List.mem_cons_of_mem _ member)) fun cs => done (c :: cs)

private theorem foldlM {step : γ → α → ExceptT ε (StateM Store) γ}
    {step' : δ → β → ExceptT ε (StateM Store) δ} (items : List α)
    (each : ∀ c, ∀ a ∈ items, m.Even g (step c a) (step' (g c) (f a))) (start : γ) :
    m.Even g (items.foldlM step start) ((items.map f).foldlM step' (g start)) := by
  induction items generalizing start with
  | nil => exact done start
  | cons a rest ih =>
    rw [List.map_cons, List.foldlM_cons, List.foldlM_cons]
    exact seq (each start a List.mem_cons_self) fun c =>
      ih (fun c b member => each c b (List.mem_cons_of_mem _ member)) c

private theorem mapSame {step : α → ExceptT ε (StateM Store) γ} {step' : α → ExceptT ε (StateM Store) δ}
    (items : List α) (each : ∀ a ∈ items, m.Even g (step a) (step' a)) :
    m.Even (List.map g) (items.mapM step) (items.mapM step') := by
  have mapped := mapM (f := id) items each
  rwa [List.map_id] at mapped

private theorem foldSame {step : γ → α → ExceptT ε (StateM Store) γ}
    {step' : δ → α → ExceptT ε (StateM Store) δ} (items : List α)
    (each : ∀ c, ∀ a ∈ items, m.Even g (step c a) (step' (g c) a)) (start : γ) :
    m.Even g (items.foldlM step start) (items.foldlM step' (g start)) := by
  have folded := foldlM (f := id) items each start
  rwa [List.map_id] at folded

theorem keepCell {c : Cell} (leaves : ∀ asked, c = .query asked → m.Leaves asked) :
    m.Even m.moved (ExceptT.lift (Store.keepCell c) : ExceptT ε (StateM Store) Datum)
      (ExceptT.lift (Store.keepCell (m.movedCell c))) := by
  refine ⟨.lift (keepCell_adds c), fun s t fits small => ?_⟩
  have room : s.cells.size < m.limit := by
    change (s.cells.push c).size ≤ m.limit at small
    rw [Array.size_push] at small
    exact small
  refine ⟨fits.push room leaves, ?_⟩
  change Except.ok (Value.shared ⟨t.cells.size⟩) = Except.ok (Value.shared (m.place ⟨s.cells.size⟩))
  exact congrArg (fun share => Except.ok (Value.shared share)) (fits.new 0 room).symm

end Even

/-! ## Questions -/

namespace Even

variable {β : Type} {ask ask' : Datum → Ask Datum}

theorem fail {α : Type} {f : α → β} (fault : Fault) :
    m.Even f (Ask.fail fault) (Ask.fail fault) := stop fault

theorem opened (v : Datum) : m.Even m.moved (Ask.opened v) (Ask.opened (m.moved v)) :=
  look (fun _ => .pure adds_lasting _) fun s t fits => by
    rw [fits.opened]
    exact done _

private theorem build (content : Datum) :
    m.Even m.moved (Ask.build content) (Ask.build (m.moved content)) :=
  keepCell nofun

/-- To answer with a container, given how it is moved. -/
theorem builds {content content' : Datum} (same : content' = m.moved content) :
    m.Even m.moved (Ask.build content) (Ask.build content') := by
  rw [same]
  exact build content

/-- To answer with a datum, given how it is moved. -/
theorem answers {v v' : Datum} (same : v' = m.moved v) :
    m.Even m.moved (pure v : Ask Datum) (pure v') := by
  rw [same]
  exact done v

/-- To answer with what holds no container. -/
theorem finds {α : Type} {a a' : α} (same : a' = a) : m.Even id (pure a : Ask α) (pure a') := by
  rw [same]
  exact done a

private theorem number (n : Num) : m.Even m.moved (Ask.number n) (Ask.number n) := by
  cases n with
  | int n => exact answers rfl
  | float x =>
    change m.Even m.moved (if x.isNaN then Ask.build (.float x) else pure (.float x))
      (if x.isNaN then Ask.build (.float x) else pure (.float x))
    split
    · exact builds rfl
    · exact answers rfl

private theorem same' (a b : Datum) : m.Even id (Ask.same a b) (Ask.same (m.moved a) (m.moved b)) := by
  refine look (fun s => ?_) fun s t fits => ?_
  · split
    · exact .pure adds_lasting _
    · exact .throw adds_lasting _
  · rw [show t.same? (m.moved a) (m.moved b) = s.same? a b from fits.sameTo _ a b]
    split
    · exact done _
    · exact fail _

/-! ## Functions -/

private theorem of?_moved (v : Datum) : SortKey.of? (m.moved v) = SortKey.of? v := by
  cases v <;> simp [SortKey.of?, Value.num?]

private theorem keyBy (asks : ∀ v, m.Even m.moved (ask v) (ask' (m.moved v))) (item : Datum) :
    m.Even id (keyBy ask item) (keyBy ask' (m.moved item)) := by
  refine seq (asks item) fun found => seq (opened found) fun content => ?_
  rw [of?_moved]
  split
  · exact done _
  · exact fail _

/-- A key with the element that it was found for, moved. -/
def movedKeyed (m : Relocation) (keyed : SortKey × Datum) : SortKey × Datum := (keyed.1, m.moved keyed.2)

private theorem keysBy {look look' : Datum → Ask Datum}
    (looks : ∀ v, m.Even m.moved (look v) (look' (m.moved v)))
    (asks : ∀ v, m.Even m.moved (ask v) (ask' (m.moved v))) (items : List Datum) :
    m.Even (List.map (movedKeyed m)) (keysBy look ask items)
      (keysBy look' ask' (items.map m.moved)) := by
  cases items with
  | nil => exact done []
  | cons first rest =>
    refine seq (keyBy looks first) fun start => ?_
    refine seq (mapM (g := movedKeyed m) rest fun item _ => seq (keyBy asks item) fun key => ?_)
      fun others => ?_
    · dsimp only [id]
      split
      · exact done (key, item)
      · exact fail _
    · exact done ((start, first) :: others)

private theorem sorted_moved (keyed : List (SortKey × Datum)) :
    Path.sorted (keyed.map (movedKeyed m)) = (Path.sorted keyed).map m.moved := by
  unfold Path.sorted
  rw [Sorting.sort_map, List.map_map, List.map_map]
  rfl

private theorem bestBy (asks : ∀ v, m.Even m.moved (ask v) (ask' (m.moved v)))
    (surpasses : SortKey → SortKey → Except Fault Bool) (items : List Datum) :
    m.Even m.moved (bestBy ask surpasses items) (bestBy ask' surpasses (items.map m.moved)) := by
  cases items with
  | nil => exact answers rfl
  | cons first rest =>
    refine seq (keyBy asks first) fun start => ?_
    refine seq (foldlM (g := Prod.map m.moved id) rest (fun best item _ => ?_) (first, start))
      fun best => ?_
    · obtain ⟨best, bestKey⟩ := best
      refine seq (keyBy asks item) fun key => ?_
      dsimp only [id, Prod.map]
      split
      · exact done (item, key)
      · exact done (best, bestKey)
      · exact fail _
    · exact done best.1

private theorem rounded (round : Number.Binary → Option Int) (x : Float) :
    m.Even m.moved (rounded round x) (rounded round x) := by
  unfold Path.rounded
  dsimp only
  split
  · exact answers rfl
  · exact fail _

private theorem numberOfText (s : String) : m.Even m.moved (numberOfText s) (numberOfText s) := by
  unfold Path.numberOfText
  split
  · exact answers rfl
  · split
    · exact number _
    · exact answers rfl

private theorem sumOf (items : List Datum) : m.Even id (sumOf items) (sumOf (items.map m.moved)) := by
  refine seq (f := id) (look (fun _ => .pure adds_lasting _) fun s t fits => finds ?_) fun numbers => ?_
  · rw [List.filterMap_map]
    refine congrArg (List.filterMap · items) (funext fun item => ?_)
    simp only [Function.comp, fits.opened, num?_moved]
  · dsimp only [id]
    split
    · exact done _
    · exact fail _

private theorem textsOf (items : List Datum) :
    m.Even id (textsOf items) (textsOf (items.map m.moved)) := by
  refine look (fun _ => .pure adds_lasting _) fun s t fits => finds ?_
  rw [List.filterMap_map]
  refine congrArg (List.filterMap · items) (funext fun item => ?_)
  simp only [Function.comp, fits.opened]
  cases s.opened item <;> simp

private theorem isAmong (sought : Datum) (items : List Datum) :
    m.Even id (isAmong sought items) (isAmong (m.moved sought) (items.map m.moved)) := by
  induction items with
  | nil => exact done _
  | cons item rest ih =>
    refine look (fun s => ?_) fun s t fits => ?_
    · split
      · exact .pure adds_lasting _
      · exact ih.adds
      · exact .throw adds_lasting _
    · rw [fits.alike?]
      split
      · exact done _
      · exact ih
      · exact fail _

private theorem textOf (v : Datum) : m.Even m.moved (textOf v) (textOf (m.moved v)) := by
  refine look (fun s => ?_) fun s t fits => ?_
  · split
    · exact .throw adds_lasting _
    · split
      · exact .throw adds_lasting _
      · exact .pure adds_lasting _
  · rw [fits.tree?]
    split
    · exact fail _
    · split
      · exact fail _
      · exact answers rfl

private theorem mergeAll (entries : List (Datum × Datum)) (values : List Datum) :
    m.Even m.moved (mergeAll entries values)
      (mergeAll (entries.map m.movedEntry) (values.map m.moved)) := by
  induction values generalizing entries with
  | nil => exact builds (m.ofEntries_moved entries)
  | cons v rest ih =>
    refine look (fun s => ?_) fun s t fits => ?_
    · split
      · exact (ih _).adds
      · exact .throw adds_lasting _
      · exact .throw adds_lasting _
    · rw [fits.entries]
      cases Value.entries s.opened v with
      | ok found =>
        simp only [Except.map]
        rw [← List.map_append]
        exact ih _
      | error fault => cases fault <;> exact fail _

private theorem kindName_moved (v : Datum) : kindName (m.moved v) = m.moved (kindName v) := by
  cases v <;> simp [kindName]

/-- The entries of an object answer as their parts do. -/
theorem entriesOf {part : List (Datum × Datum) → List Datum} (content : Datum)
    (parts : ∀ entries, part (entries.map m.movedEntry) = (part entries).map m.moved) :
    m.Even m.moved
      (match content.entries? with
        | some entries => Ask.build (.list (part entries))
        | none => Ask.fail .argumentKind)
      (match (m.moved content).entries? with
        | some entries => Ask.build (.list (part entries))
        | none => Ask.fail .argumentKind) := by
  rw [m.entries?_moved]
  cases content.entries? with
  | some entries => exact builds (by rw [moved_list, ← parts])
  | none => exact fail _

private theorem applyOne (f : Function) (v : Datum) :
    m.Even m.moved (f.applyOne v) (f.applyOne (m.moved v)) := by
  refine seq (opened v) fun content => ?_
  cases f with
  | abs =>
    cases content with
    | int n => exact answers rfl
    | float x => exact number _
    | _ => exact fail _
  | ceil | floor =>
    cases content with
    | float x => exact rounded _ x
    | _ => exact done v
  | avg =>
    cases content with
    | list items =>
      rw [moved_list]
      cases items with
      | nil => exact answers rfl
      | cons first rest =>
        refine seq (sumOf (first :: rest)) fun total => ?_
        rw [List.length_map]
        dsimp only [id]
        cases total.share? (first :: rest).length with
        | some x => exact number _
        | none => exact fail _
    | _ => exact fail _
  | sum =>
    cases content with
    | list items =>
      rw [moved_list]
      exact seq (sumOf items) number
    | _ => exact fail _
  | keys => exact entriesOf content fun entries => by simp [movedEntry]
  | values => exact entriesOf content fun entries => by simp [movedEntry]
  | length =>
    cases content with
    | str s => exact answers rfl
    | list items =>
      rw [moved_list]
      exact answers (by simp)
    | object fields =>
      rw [moved_object]
      exact answers (by simp)
    | table entries =>
      rw [moved_table]
      exact answers (by simp)
    | _ => exact fail _
  | max | min =>
    cases content with
    | list items =>
      rw [moved_list]
      exact bestBy done _ items
    | _ => exact fail _
  | reverse =>
    cases content with
    | list items =>
      rw [moved_list]
      exact builds (by simp)
    | str s => exact answers rfl
    | _ => exact fail _
  | sort =>
    cases content with
    | list items =>
      rw [moved_list]
      exact seq (keysBy done done items) fun keyed => builds (by rw [sorted_moved, moved_list])
    | _ => exact fail _
  | toArray =>
    cases content with
    | list items => exact done v
    | _ => exact builds (by simp)
  | toNumber =>
    cases content with
    | int n => exact done v
    | float x => exact done v
    | str s => exact numberOfText s
    | shared share => exact fail _
    | _ => exact answers rfl
  | toString =>
    cases content with
    | str s => exact answers rfl
    | _ => exact textOf v
  | type => exact answers (kindName_moved content)
  | _ => exact fail _

private theorem applyTwo (f : Function) (v w : Datum) :
    m.Even m.moved (f.applyTwo v w) (f.applyTwo (m.moved v) (m.moved w)) := by
  refine seq (opened v) fun first => seq (opened w) fun second => ?_
  cases f with
  | contains =>
    cases first with
    | str s => cases second <;> first | exact answers rfl | exact fail _
    | list items =>
      rw [moved_list]
      exact seq (isAmong w items) fun found => answers rfl
    | _ => exact fail _
  | endsWith | startsWith =>
    cases first with
    | str s => cases second <;> first | exact answers rfl | exact fail _
    | _ => exact fail _
  | join =>
    cases first with
    | str separator =>
      cases second with
      | list items =>
        rw [moved_list]
        exact seq (textsOf items) fun texts => answers rfl
      | _ => exact fail _
    | _ => exact fail _
  | _ => exact fail _

private theorem applyQuery (f : Function) (v : Datum) {ask ask' : Nat → Datum → Ask Datum}
    (asks : ∀ steps v, m.Even m.moved (ask steps v) (ask' steps (m.moved v))) :
    m.Even m.moved (f.applyQuery v ask) (f.applyQuery (m.moved v) ask') := by
  refine seq (opened v) fun content => ?_
  cases content with
  | list items =>
    rw [moved_list]
    cases f with
    | map => exact seq (mapM items fun item _ => asks 3 item) fun found => builds (by rw [moved_list])
    | maxBy => exact bestBy (asks 5) _ items
    | minBy => exact bestBy (asks 5) _ items
    | sortBy =>
      cases items with
      | nil => exact done v
      | cons first rest =>
        exact seq (keysBy (asks 3) (asks 4) (first :: rest)) fun keyed =>
          builds (by rw [sorted_moved, moved_list])
    | _ => exact fail _
  | _ => cases f <;> exact fail _

private theorem runIn_queryOf (share : Share) (s : Store) : runIn (Path.queryOf (.shared share)) s =
    (match s.cell? share with
      | some (.query asked) => .ok asked
      | _ => .error .argumentKind, s) := by
  change runIn (match s.cell? share with
    | some (.query asked) => pure asked
    | _ => Ask.fail .argumentKind) s = _
  split <;> rfl

/-- What goes on with the query that a datum is goes on with the same query, and all that it writes
out stays. -/
theorem queryOf {next next' : Expr → Ask Datum} (adds : ∀ asked, Adding (next asked))
    (rest : ∀ asked, m.Leaves asked → m.Even m.moved (next asked) (next' asked)) (v : Datum) :
    m.Even m.moved (Path.queryOf v >>= next) (Path.queryOf (m.moved v) >>= next') := by
  refine ⟨Adding.seq (Adding.queryOf v) adds, fun s t fits small => ?_⟩
  cases v with
  | shared share =>
    have there := fits.cells share
    rw [moved_shared, runIn_bind, runIn_bind, runIn_queryOf, runIn_queryOf, there]
    rw [runIn_bind, runIn_queryOf] at small
    cases found : s.cell? share with
    | none => exact ⟨fits, rfl⟩
    | some c =>
      cases c with
      | data content => exact ⟨fits, rfl⟩
      | query asked =>
        rw [found] at small
        exact (rest asked (fits.queries share asked found)).same s t fits small
  | _ => exact ⟨fits, rfl⟩

private theorem firstValue_moved (values : List Datum) :
    firstValue (values.map m.moved) = m.moved (firstValue values) := by
  induction values with
  | nil => rfl
  | cons v rest ih => cases v <;> simp [firstValue, ih]

private theorem apply {eval eval' : Nat → Expr → Datum → Ask Datum}
    (adds : ∀ steps e v, Adding (eval steps e v))
    (evals : ∀ steps e v, m.Leaves e → m.Even m.moved (eval steps e v) (eval' steps e (m.moved v)))
    (f : Function) (arguments : List Datum) :
    m.Even m.moved (f.apply eval arguments) (f.apply eval' (arguments.map m.moved)) := by
  have querying : ∀ (f : Function) query v, m.Even m.moved
      (Path.queryOf query >>= fun asked => f.applyQuery v fun steps => eval steps asked)
      (Path.queryOf (m.moved query) >>=
        fun asked => f.applyQuery (m.moved v) fun steps => eval' steps asked) :=
    fun f query v => queryOf (fun asked => Adding.applyQuery f v fun steps v => adds steps asked v)
      (fun asked leaves => applyQuery f v fun steps v => evals steps asked v leaves) query
  match arguments with
  | [] => cases f <;> first | exact builds (m.ofEntries_moved []) | exact answers rfl | exact fail _
  | [v] =>
    cases f with
    | merge => exact mergeAll [] [v]
    | notNull => exact answers (firstValue_moved [v])
    | _ =>
      simp only [Function.apply, List.map_cons, List.map_nil]
      exact applyOne _ v
  | [v, w] =>
    cases f with
    | merge => exact mergeAll [] [v, w]
    | notNull => exact answers (firstValue_moved [v, w])
    | map => exact querying .map v w
    | maxBy => exact querying .maxBy w v
    | minBy => exact querying .minBy w v
    | sortBy => exact querying .sortBy w v
    | _ =>
      simp only [Function.apply, List.map_cons, List.map_nil]
      exact applyTwo _ v w
  | a :: b :: c :: rest =>
    cases f with
    | merge => exact mergeAll [] (a :: b :: c :: rest)
    | notNull => exact answers (firstValue_moved (a :: b :: c :: rest))
    | _ => exact fail _

private theorem kindOf_moved (v : Datum) : Kind.of (m.moved v) = Kind.of v := by
    cases v <;> simp [Kind.of]

private theorem argumentAllowed_moved {s t : Store} (fits : m.Fits s t) (allowed : List Allowed)
    (argument : Datum) :
    argumentAllowed t allowed (m.moved argument) = argumentAllowed s allowed argument := by
  unfold argumentAllowed
  simp only [fits.opened, kindOf_moved]
  cases s.opened argument <;> simp [fits.opened, kindOf_moved, Function.comp_def]

private theorem check_moved {s t : Store} (fits : m.Fits s t) (signature : Signature)
    (arguments : List Datum) :
    signature.check t (arguments.map m.moved) = signature.check s arguments := by
  have met : (signature.arguments.zip (arguments.map m.moved)).all
      (fun entry => argumentAllowed t entry.1 entry.2) =
      (signature.arguments.zip arguments).all fun entry => argumentAllowed s entry.1 entry.2 := by
    rw [List.zip_map_right, List.all_map]
    refine congrArg (List.all _) (funext fun entry => ?_)
    exact argumentAllowed_moved fits entry.1 entry.2
  unfold Signature.check
  rw [List.length_map, met]

private theorem callFunction {eval eval' : Nat → Expr → Datum → Ask Datum}
    (adds : ∀ steps e v, Adding (eval steps e v))
    (evals : ∀ steps e v, m.Leaves e → m.Even m.moved (eval steps e v) (eval' steps e (m.moved v)))
    (name : String) (arguments : List Datum) :
    m.Even m.moved (callFunction eval name arguments)
      (callFunction eval' name (arguments.map m.moved)) := by
  unfold Path.callFunction
  split
  · exact fail _
  · next f _ =>
    refine look (fun s => ?_) fun s t fits => ?_
    · split
      · exact Adding.apply adds f arguments
      · exact .throw adds_lasting _
    · rw [check_moved fits]
      split
      · exact apply adds evals f arguments
      · exact fail _

/-! ## Queries -/

private theorem member (name : String) (v : Datum) :
    m.Even m.moved (member name v) (member name (m.moved v)) := by
  refine seq (opened v) fun content => answers ?_
  rw [m.member?_moved]
  cases content.member? name <;> rfl

private theorem element (place : Int) (v : Datum) :
    m.Even m.moved (element place v) (element place (m.moved v)) := by
  refine seq (opened v) fun content => ?_
  cases content with
  | list items =>
    rw [moved_list]
    refine answers ?_
    rw [List.length_map]
    cases placeIn? items.length place with
    | none => rfl
    | some i =>
      simp only [Option.bind_some, List.getElem?_map]
      cases items[i]? <;> rfl
  | _ => exact answers rfl

private theorem part (start stop step : Option Int) (v : Datum) :
    m.Even m.moved (part start stop step v) (part start stop step (m.moved v)) := by
  refine seq (opened v) fun content => ?_
  cases content with
  | list items =>
    rw [moved_list]
    dsimp only
    split
    · exact fail _
    · refine builds ?_
      rw [moved_list, List.length_map, List.map_filterMap]
      simp only [List.getElem?_map]
  | _ => exact answers rfl

private theorem flattened (v : Datum) : m.Even m.moved (flattened v) (flattened (m.moved v)) := by
  refine look (fun s => ?_) fun s t fits => ?_
  · split
    · exact Adding.build _
    · exact .pure adds_lasting _
  · rw [fits.opened]
    cases s.opened v with
    | list items =>
      rw [moved_list]
      refine builds ?_
      rw [moved_list, List.flatMap_map, List.map_flatMap]
      refine congrArg Value.list (congrArg (List.flatMap · items) (funext fun item => ?_))
      rw [fits.opened]
      cases s.opened item <;> simp
    | _ => exact answers rfl

theorem isNull_moved (v : Datum) : isNull (m.moved v) = isNull v := by cases v <;> simp [isNull]

private theorem isFalse_moved (v : Datum) : isFalse (m.moved v) = isFalse v := by
    cases v <;> simp [Path.isFalse]

private theorem askEach (asks : ∀ v, m.Even m.moved (ask v) (ask' (m.moved v))) (items : List Datum) :
    m.Even (List.map m.moved) (askEach ask items) (askEach ask' (items.map m.moved)) := by
  induction items with
  | nil => exact done []
  | cons item rest ih =>
    refine seq (asks item) fun found => seq ih fun others => ?_
    rw [isNull_moved]
    split
    · exact done others
    · exact done (found :: others)

private theorem askWhere {condition condition' : Datum → Ask Datum}
    (tests : ∀ v, m.Even m.moved (condition v) (condition' (m.moved v)))
    (asks : ∀ v, m.Even m.moved (ask v) (ask' (m.moved v))) (items : List Datum) :
    m.Even (List.map m.moved) (askWhere condition ask items)
      (askWhere condition' ask' (items.map m.moved)) := by
  induction items with
  | nil => exact done []
  | cons item rest ih =>
    refine seq (tests item) fun met => seq (opened met) fun content => ?_
    rw [isFalse_moved]
    split
    · exact ih
    · refine seq (asks item) fun found => seq ih fun others => ?_
      rw [isNull_moved]
      split
      · exact done others
      · exact done (found :: others)

private theorem ordered (holds : SortKey → SortKey → Except Fault Bool) (a b : Datum) :
    m.Even m.moved (ordered holds a b) (ordered holds (m.moved a) (m.moved b)) := by
  refine seq (opened a) fun first => seq (opened b) fun second => ?_
  rw [of?_moved, of?_moved]
  split
  · split
    · exact answers rfl
    · exact fail _
  · exact answers rfl

private theorem equal (a b : Datum) : m.Even id (equal a b) (equal (m.moved a) (m.moved b)) := by
  refine seq (opened a) fun first => seq (opened b) fun second => ?_
  cases first <;> cases second <;> first | exact done _ | exact same' a b

private theorem compareValues (c : Comparison) (a b : Datum) :
    m.Even m.moved (compareValues c a b) (compareValues c (m.moved a) (m.moved b)) := by
  cases c with
  | equal | unequal => exact seq (equal a b) fun outcome => answers rfl
  | below | atMost | above | atLeast => exact ordered _ a b

private theorem evalTo (fuel room : Nat) {e : Expr} (leaves : m.Leaves e) (v : Datum) :
    m.Even m.moved (evalTo fuel room e v) (evalTo fuel room e (m.moved v)) := by
  induction fuel generalizing room e v with
  | zero => exact fail _
  | succ fuel ih =>
    unfold Path.evalTo
    split
    · exact fail _
    · have asks : ∀ {e}, m.Leaves e → ∀ v, m.Even m.moved (Path.evalTo fuel (room - stepsOfQuery) e v)
          (Path.evalTo fuel (room - stepsOfQuery) e (m.moved v)) := fun leaves => ih _ leaves
      cases e with
      | current => exact done v
      | literal value => exact answers (m.moved_eq_self leaves).symm
      | field name => exact member name v
      | index place => exact element place v
      | slice start stop step => exact part start stop step v
      | chain steps =>
        have each := Expr.everyOf_iff.mp leaves
        exact foldSame steps (fun found step member => asks (each step member) found) v
      | pipe left right => exact seq (asks leaves.1 v) fun found => asks leaves.2 found
      | flatten list => exact seq (asks (e := list) leaves v) fun found => flattened found
      | each list rhs =>
        refine seq (asks leaves.1 v) fun found => seq (opened found) fun content => ?_
        cases content with
        | list items =>
          rw [moved_list]
          exact seq (askEach (asks leaves.2) items) fun results => builds (by rw [moved_list])
        | _ => exact answers rfl
      | eachValue object rhs =>
        refine seq (asks leaves.1 v) fun found => seq (opened found) fun content => ?_
        rw [m.entries?_moved]
        cases content.entries? with
        | some entries =>
          have values : (entries.map m.movedEntry).map Prod.snd =
              (entries.map Prod.snd).map m.moved := by
            simp [movedEntry]
          simp only [Option.map_some, values]
          exact seq (askEach (asks leaves.2) _) fun results => builds (by rw [moved_list])
        | none => exact answers rfl
      | filter list rhs condition =>
        refine seq (asks leaves.1 v) fun found => seq (opened found) fun content => ?_
        cases content with
        | list items =>
          rw [moved_list]
          exact seq (askWhere (asks leaves.2.2) (asks leaves.2.1) items) fun results =>
            builds (by rw [moved_list])
        | _ => exact answers rfl
      | compare c left right =>
        exact seq (asks leaves.1 v) fun a => seq (asks leaves.2 v) fun b => compareValues c a b
      | either left right =>
        refine seq (asks leaves.1 v) fun a => seq (opened a) fun content => ?_
        rw [isFalse_moved]
        split
        · exact asks leaves.2 v
        · exact done a
      | both left right =>
        refine seq (asks leaves.1 v) fun a => seq (opened a) fun content => ?_
        rw [isFalse_moved]
        split
        · exact done a
        · exact asks leaves.2 v
      | negate operand =>
        refine seq (asks (e := operand) leaves v) fun found =>
          seq (opened found) fun content => answers ?_
        rw [isFalse_moved]
        rfl
      | listOf elements =>
        have each := Expr.everyOf_iff.mp leaves
        dsimp only
        rw [isNull_moved]
        split
        · exact answers rfl
        · exact seq (mapSame elements fun element member => asks (each element member) v) fun results =>
            builds (by rw [moved_list])
      | objectOf members =>
        have each := Expr.everyMember_iff.mp leaves
        dsimp only
        rw [isNull_moved]
        split
        · exact answers rfl
        · refine seq (mapSame (g := m.movedField) members fun entry member => ?_) fun results =>
            builds (by rw [ofList_moved, moved_object])
          exact seq (ih (room - 2 * stepsOfQuery) (each entry member) v) fun found =>
            done (entry.1, found)
      | call function arguments =>
        have each := Expr.everyOf_iff.mp leaves
        refine seq (mapSame arguments fun argument member => asks (each argument member) v)
          fun results => ?_
        exact callFunction (fun steps e v => Adding.evalTo fuel (room - stepsOfQuery - steps) e v)
          (fun steps e v leaves => ih (room - stepsOfQuery - steps) leaves v) function results
      | quotation query => exact keepCell fun asked same => by cases same; exact leaves

/-- What is found does not depend on where it is kept. -/
theorem eval {e : Expr} (leaves : m.Leaves e) (v : Datum) :
    m.Even m.moved (eval e v) (eval e (m.moved v)) :=
  evalTo _ _ leaves v

end Even

end Relocation

end ResourceGraph
