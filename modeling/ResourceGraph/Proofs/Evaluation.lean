import ResourceGraph.Proofs.StoreGrowth

/-!
Evaluating an expression only adds to the store, whatever the expression is and whether or not it
has a result. Each function that evaluation is made of is shown to do so from the functions it is
made of itself; the evaluator passes itself to them, and that case is carried by the induction on
its fuel.
-/

namespace ResourceGraph.Path

open Store

variable {α β : Type}

/-- A question that only adds to the store. -/
abbrev Adding (asked : Ask α) : Prop := Keeps Adds asked

namespace Adding

theorem seq {first : Ask α} {next : α → Ask β} (one : Adding first) (rest : ∀ a, Adding (next a)) :
    Adding (first >>= next) := .bind adds_lasting one rest

theorem done (a : α) : Adding (pure a : Ask α) := .pure adds_lasting a

theorem fail (fault : Fault) : Adding (Ask.fail fault : Ask α) := .throw adds_lasting fault

theorem looking : Adding (get : Ask Store) := .get adds_lasting

theorem opened (v : Datum) : Adding (Ask.opened v) := seq looking fun _ => done _

theorem build (content : Datum) : Adding (Ask.build content) := .lift (keep_adds content)

private theorem number (n : Num) : Adding (Ask.number n) := by
  cases n with
  | int n => exact done _
  | float x =>
    change Adding (if x.isNaN then Ask.build (.float x) else pure (.float x))
    split
    · exact build _
    · exact done _

private theorem same (a b : Datum) : Adding (Ask.same a b) := by
  refine seq looking fun s => ?_
  split
  · exact done _
  · exact fail _

/-! ## Functions -/

private theorem keyBy {ask : Datum → Ask Datum} (asks : ∀ v, Adding (ask v)) (item : Datum) :
    Adding (keyBy ask item) := by
  refine seq (asks item) fun found => seq (opened found) fun content => ?_
  split
  · exact done _
  · exact fail _

private theorem keysBy {look ask : Datum → Ask Datum} (looks : ∀ v, Adding (look v))
    (asks : ∀ v, Adding (ask v)) (items : List Datum) : Adding (keysBy look ask items) := by
  cases items with
  | nil => exact done _
  | cons first rest =>
    refine seq (keyBy looks first) fun start => seq ?_ fun others => done _
    refine .mapM adds_lasting fun item _ => seq (keyBy asks item) fun key => ?_
    split
    · exact done _
    · exact fail _

private theorem bestBy {ask : Datum → Ask Datum} (asks : ∀ v, Adding (ask v))
    (surpasses : SortKey → SortKey → Except Fault Bool) (items : List Datum) :
    Adding (bestBy ask surpasses items) := by
  cases items with
  | nil => exact done _
  | cons first rest =>
    refine seq (keyBy asks first) fun start => seq ?_ fun best => done _
    refine .foldlM adds_lasting _ (fun best item _ => seq (keyBy asks item) fun key => ?_) _
    split
    · exact done _
    · exact done _
    · exact fail _

private theorem rounded (round : Number.Binary → Option Int) (x : Float) : Adding (rounded round x) := by
  unfold Path.rounded
  dsimp only
  split
  · exact done _
  · exact fail _

private theorem numberOfText (s : String) : Adding (numberOfText s) := by
  unfold Path.numberOfText
  split
  · exact done _
  · split
    · exact number _
    · exact done _

private theorem sumOf (items : List Datum) : Adding (sumOf items) := by
  refine seq (seq looking fun _ => done _) fun numbers => ?_
  split
  · exact done _
  · exact fail _

private theorem textsOf (items : List Datum) : Adding (textsOf items) := seq looking fun _ => done _

private theorem isAmong (sought : Datum) (items : List Datum) : Adding (isAmong sought items) := by
  induction items with
  | nil => exact done _
  | cons item rest ih =>
    refine seq looking fun s => ?_
    split
    · exact done _
    · exact ih
    · exact fail _

private theorem textOf (v : Datum) : Adding (textOf v) := by
  refine seq looking fun s => ?_
  split
  · exact fail _
  · split
    · exact fail _
    · exact done _

private theorem mergeAll (entries : List (Datum × Datum)) (values : List Datum) :
    Adding (mergeAll entries values) := by
  induction values generalizing entries with
  | nil => exact build _
  | cons v rest ih =>
    refine seq looking fun s => ?_
    split
    · exact ih _
    · exact fail _
    · exact fail _

private theorem applyOne (f : Function) (v : Datum) : Adding (f.applyOne v) := by
  refine seq (opened v) fun content => ?_
  split
  all_goals with_reducible first
    | exact done _
    | exact fail _
    | exact build _
    | exact number _
    | exact rounded _ _
    | exact numberOfText _
    | exact textOf _
    | exact bestBy (fun v => done v) _ _
    | exact seq (sumOf _) fun _ => number _
    | exact seq (keysBy (fun v => done v) (fun v => done v) _) fun _ => build _
    | skip
  -- What remains looks at a further value before it answers.
  · refine seq (sumOf _) fun total => ?_
    split
    · exact number _
    · exact fail _
  all_goals
    split
    · exact build _
    · exact fail _

private theorem applyTwo (f : Function) (v w : Datum) : Adding (f.applyTwo v w) := by
  refine seq (opened v) fun first => seq (opened w) fun second => ?_
  split
  all_goals with_reducible first
    | exact done _
    | exact fail _
    | exact seq (isAmong w _) fun _ => done _
    | exact seq (textsOf _) fun _ => done _

theorem applyQuery (f : Function) (v : Datum) {ask : Nat → Datum → Ask Datum}
    (asks : ∀ steps v, Adding (ask steps v)) : Adding (f.applyQuery v ask) := by
  refine seq (opened v) fun content => ?_
  split
  · exact seq (.mapM adds_lasting fun item _ => asks 3 item) fun _ => build _
  · exact bestBy (asks 5) _ _
  · exact bestBy (asks 5) _ _
  · exact done _
  · exact seq (keysBy (asks 3) (asks 4) _) fun _ => build _
  · exact fail _

theorem queryOf (v : Datum) : Adding (queryOf v) := by
  unfold Path.queryOf
  split
  · refine seq looking fun s => ?_
    split
    · exact done _
    · exact fail _
  · exact fail _

theorem apply {eval : Nat → Expr → Datum → Ask Datum} (evals : ∀ steps e v, Adding (eval steps e v))
    (f : Function) (arguments : List Datum) : Adding (f.apply eval arguments) := by
  unfold Function.apply
  split
  · exact mergeAll _ _
  · exact done _
  all_goals first
    | exact seq (queryOf _) fun asked => applyQuery _ _ fun steps => evals steps asked
    | exact applyOne _ _
    | exact applyTwo _ _ _
    | exact fail _

private theorem callFunction {eval : Nat → Expr → Datum → Ask Datum}
    (evals : ∀ steps e v, Adding (eval steps e v)) (name : String) (arguments : List Datum) :
    Adding (callFunction eval name arguments) := by
  unfold Path.callFunction
  split
  · exact fail _
  · refine seq looking fun s => ?_
    split
    · exact apply evals _ arguments
    · exact fail _

/-! ## Queries -/

private theorem member (name : String) (v : Datum) : Adding (member name v) :=
  seq (opened v) fun _ => done _

private theorem element (place : Int) (v : Datum) : Adding (element place v) := by
  refine seq (opened v) fun content => ?_
  split <;> exact done _

private theorem part (start stop step : Option Int) (v : Datum) : Adding (part start stop step v) := by
  refine seq (opened v) fun content => ?_
  split
  · dsimp only
    split
    · exact fail _
    · exact build _
  · exact done _

private theorem flattened (v : Datum) : Adding (flattened v) := by
  refine seq looking fun s => ?_
  split
  · exact build _
  · exact done _

private theorem askEach {ask : Datum → Ask Datum} (asks : ∀ v, Adding (ask v)) (items : List Datum) :
    Adding (askEach ask items) := by
  induction items with
  | nil => exact done _
  | cons item rest ih => exact seq (asks item) fun _ => seq ih fun _ => done _

private theorem askWhere {condition ask : Datum → Ask Datum} (tests : ∀ v, Adding (condition v))
    (asks : ∀ v, Adding (ask v)) (items : List Datum) : Adding (askWhere condition ask items) := by
  induction items with
  | nil => exact done _
  | cons item rest ih =>
    refine seq (tests item) fun met => seq (opened met) fun content => ?_
    split
    · exact ih
    · exact seq (asks item) fun _ => seq ih fun _ => done _

private theorem ordered (holds : SortKey → SortKey → Except Fault Bool) (a b : Datum) :
    Adding (ordered holds a b) := by
  refine seq (opened a) fun first => seq (opened b) fun second => ?_
  split
  · split
    · exact done _
    · exact fail _
  · exact done _

private theorem equal (a b : Datum) : Adding (equal a b) := by
  refine seq (opened a) fun first => seq (opened b) fun second => ?_
  split
  · exact done _
  · exact done _
  · exact done _
  · exact same _ _

private theorem compareValues (c : Comparison) (a b : Datum) : Adding (compareValues c a b) := by
  cases c with
  | equal | unequal => exact seq (equal a b) fun _ => done _
  | below | atMost | above | atLeast => exact ordered _ a b

theorem evalTo (fuel room : Nat) (e : Expr) (v : Datum) : Adding (evalTo fuel room e v) := by
  induction fuel generalizing room e v with
  | zero => exact fail _
  | succ fuel ih =>
    unfold Path.evalTo
    split
    · exact fail _
    · have asks := ih (room - stepsOfQuery)
      cases e with
      | current | literal _ => exact done _
      | field name => exact member name v
      | index place => exact element place v
      | slice start stop step => exact part start stop step v
      | chain steps => exact .foldlM adds_lasting _ (fun found step _ => asks step found) v
      | pipe left right => exact seq (asks left v) fun _ => asks right _
      | flatten list => exact seq (asks list v) fun _ => flattened _
      | each list rhs =>
        refine seq (asks list v) fun _ => seq (opened _) fun content => ?_
        split
        · exact seq (askEach (asks rhs) _) fun _ => build _
        · exact done _
      | eachValue object rhs =>
        refine seq (asks object v) fun _ => seq (opened _) fun content => ?_
        split
        · exact seq (askEach (asks rhs) _) fun _ => build _
        · exact done _
      | filter list rhs condition =>
        refine seq (asks list v) fun _ => seq (opened _) fun content => ?_
        split
        · exact seq (askWhere (asks condition) (asks rhs) _) fun _ => build _
        · exact done _
      | compare c left right =>
        exact seq (asks left v) fun a => seq (asks right v) fun b => compareValues c a b
      | either left right | both left right =>
        refine seq (asks left v) fun a => seq (opened a) fun content => ?_
        split
        · first
          | exact asks right v
          | exact done _
        · first
          | exact asks right v
          | exact done _
      | negate operand => exact seq (asks operand v) fun _ => seq (opened _) fun _ => done _
      | listOf elements =>
        dsimp only
        split
        · exact done _
        · exact seq (.mapM adds_lasting fun element _ => asks element v) fun _ => build _
      | objectOf members =>
        dsimp only
        split
        · exact done _
        · refine seq (.mapM adds_lasting fun entry _ => ?_) fun _ => build _
          exact seq (ih _ entry.2 v) fun _ => done _
      | call function arguments =>
        refine seq (.mapM adds_lasting fun argument _ => asks argument v) fun given => ?_
        exact callFunction (fun steps e v => ih _ e v) function given
      | quotation query => exact .lift (keepCell_adds _)

end Adding

/-! ## Searching -/

/-- The result of a query changes the store as its evaluation does. -/
theorem runIn_adapt (asked : Ask α) (s : Store) :
    runIn (ExceptT.adapt Failure.path asked : Search α) s =
      ((runIn asked s).1.mapError Failure.path, (runIn asked s).2) := rfl

/-- An expression that was read before is the one that is kept. -/
theorem expression_known {text : String} {s : Store} {known : Expr}
    (kept : Keyed.get? s.expressions text = some known) :
    runIn (expression text) s = (.ok known, s) := by
  unfold expression
  rw [runIn_bind, runIn_get]
  dsimp only
  rw [kept]
  rfl

/-- A text that was not read before is read now, and its expression kept if there is one. -/
theorem expression_unknown {text : String} {s : Store}
    (fresh : Keyed.get? s.expressions text = none) :
    runIn (expression text) s =
      match compile text with
      | .error fault => (.error fault, s)
      | .ok read =>
        let settled := (shareLiterals read).run s
        (.ok settled.1, { settled.2 with
          expressions := Keyed.put settled.2.expressions text settled.1 }) := by
  unfold expression
  rw [runIn_bind, runIn_get]
  dsimp only
  rw [fresh]
  cases compile text <;> rfl

theorem expression_grows (text : String) : Keeps Grows (expression text) := by
  intro s
  cases kept : Keyed.get? s.expressions text with
  | some known =>
    rw [expression_known kept]
    exact grows_lasting.refl s
  | none =>
    rw [expression_unknown kept]
    cases compile text with
    | error fault => exact grows_lasting.refl s
    | ok read => exact (shareLiterals_adds read s).cells

theorem expression_learns (text : String) : Keeps Learns (expression text) := by
  intro s
  cases kept : Keyed.get? s.expressions text with
  | some known =>
    rw [expression_known kept]
    exact learns_lasting.refl s
  | none =>
    rw [expression_unknown kept]
    cases read : compile text with
    | error fault => exact learns_lasting.refl s
    | ok expr =>
      intro other known there
      dsimp only at there
      by_cases same : other = text
      · subst same
        rw [Keyed.get?_put_self] at there
        exact .inr ⟨expr, s, read, Option.some.inj there⟩
      · rw [Keyed.get?_put_of_ne _ _ same, (shareLiterals_adds expr s).expressions] at there
        exact .inl there

theorem search_grows (text : String) (v : Datum) : Keeps Grows (search text v) := by
  unfold search
  split
  · exact .pure grows_lasting _
  · refine .bind grows_lasting (expression_grows text) fun asked s => ?_
    rw [runIn_adapt]
    exact (Adding.evalTo _ _ asked v s).cells

theorem search_learns (text : String) (v : Datum) : Keeps Learns (search text v) := by
  unfold search
  split
  · exact .pure learns_lasting _
  · refine .bind learns_lasting (expression_learns text) fun asked s => ?_
    rw [runIn_adapt]
    exact (Adding.evalTo _ _ asked v s).learns

/-- A search fails because its text cannot be read, or because the expression has no result. -/
theorem search_fails {text : String} {v : Datum} {s t : Store} {f : Failure}
    (failed : runIn (search text v) s = (.error f, t)) :
    (text ≠ whole ∧ compile text = .error f) ∨ ∃ fault, f = .path fault := by
  unfold search at failed
  split at failed
  · cases failed
  · next expression =>
    rcases bind_fails.mp failed with unread | ⟨asked, mid, _, unanswered⟩
    · refine .inl ⟨expression, ?_⟩
      cases kept : Keyed.get? s.expressions text with
      | some known =>
        rw [expression_known kept] at unread
        cases unread
      | none =>
        rw [expression_unknown kept] at unread
        cases read : compile text with
        | error fault =>
          rw [read] at unread
          cases unread
          rfl
        | ok expr =>
          rw [read] at unread
          cases unread
    · rw [runIn_adapt] at unanswered
      rcases gave : (runIn (eval asked v) mid).1 with fault | found
      · rw [gave] at unanswered
        cases unanswered
        exact .inr ⟨fault, rfl⟩
      · rw [gave] at unanswered
        cases unanswered

/-- A text that cannot be read, and so was never kept, fails whatever is searched. -/
theorem search_unread {text : String} {v : Datum} {s : Store} {f : Failure} (expression : text ≠ whole)
    (unread : compile text = .error f) (fresh : Keyed.get? s.expressions text = none) :
    runIn (search text v) s = (.error f, s) := by
  unfold search
  rw [if_neg expression]
  apply runIn_bind_error
  rw [expression_unknown fresh, unread]

end ResourceGraph.Path
