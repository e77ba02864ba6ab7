import Mathlib.Data.List.Basic
import ResourceGraph.Sorting

/-!
Sorting looks at elements through its test alone. To sort the images of elements under a map comes
to the same as to sort the elements by the test of their images and to map the outcome; so what an
element carries besides what it is ordered by has no say in its place.
-/

namespace ResourceGraph.Sorting

variable {α β : Type} {f : α → β} {before : β → β → Bool}

/-- The test of the images of elements. -/
abbrev testOf (f : α → β) (before : β → β → Bool) : α → α → Bool := fun a b => before (f a) (f b)

/-! ## Runs -/

private theorem boundary_map (fromEnd : Bool) (passes : β → Bool) (elements : List α)
    (fuel low high : Nat) :
    boundary fromEnd passes (elements.map f) fuel low high =
      boundary fromEnd (fun a => passes (f a)) elements fuel low high := by
  induction fuel generalizing low high with
  | zero => rfl
  | succ fuel ih =>
    simp only [boundary, List.getElem?_map, ih]
    split
    · cases elements[if fromEnd = true then high - 1 - (high - low) / 2
        else low + (high - low) / 2]? <;> rfl
    · rfl

private theorem stride_map (passes : β → Bool) (elements : List α) (fuel known next : Nat) :
    stride passes (elements.map f) fuel known next =
      stride (fun a => passes (f a)) elements fuel known next := by
  induction fuel generalizing known next with
  | zero => rfl
  | succ fuel ih =>
    simp only [stride, List.getElem?_map, ih, List.length_map]
    cases elements[next]? <;> rfl

private theorem lead_map (fromEnd : Bool) (passes : β → Bool) (elements : List α) :
    lead fromEnd passes (elements.map f) = lead fromEnd (fun a => passes (f a)) elements := by
  cases elements with
  | nil => rfl
  | cons first rest =>
    have mapped : f first :: rest.map f = (first :: rest).map f := rfl
    simp only [List.map_cons, lead, List.length_map]
    rw [mapped, stride_map, boundary_map]

private theorem runLength_map (falling : Bool) (last : α) (elements : List α) :
    runLength before falling (f last) (elements.map f) =
      runLength (testOf f before) falling last elements := by
  induction elements generalizing last with
  | nil => rfl
  | cons next rest ih => simp only [List.map_cons, runLength, ih]

private theorem splitRun_map (elements : List α) :
    splitRun before (elements.map f) =
      ((splitRun (testOf f before) elements).1.map f,
        (splitRun (testOf f before) elements).2.map f) := by
  match elements with
  | [] => rfl
  | [only] => rfl
  | first :: second :: rest =>
    simp only [List.map_cons, splitRun, runLength_map, testOf]
    split <;> simp [List.map_take, List.map_drop]

private theorem insert_map (sorted : List α) (x : α) :
    insert before (sorted.map f) (f x) = (insert (testOf f before) sorted x).map f := by
  simp [insert, boundary_map, List.map_take, List.map_drop]

private theorem foldl_insert_map (rest run : List α) :
    (rest.map f).foldl (insert before) (run.map f) =
      (rest.foldl (insert (testOf f before)) run).map f := by
  induction rest generalizing run with
  | nil => rfl
  | cons x rest ih => rw [List.map_cons, List.foldl_cons, List.foldl_cons, insert_map, ih]

private theorem runsFrom_map (shortest fuel : Nat) (elements : List α) :
    runsFrom before shortest fuel (elements.map f) =
      (runsFrom (testOf f before) shortest fuel elements).map (List.map f) := by
  induction fuel generalizing elements with
  | zero => cases elements <;> simp [runsFrom]
  | succ fuel ih =>
    cases elements with
    | nil => rfl
    | cons first more =>
      have mapped : f first :: more.map f = (first :: more).map f := rfl
      simp only [List.map_cons, runsFrom]
      rw [mapped, splitRun_map]
      simp only [List.length_map, ← List.map_take, ← List.map_drop, foldl_insert_map, ih]

private theorem runs_map (elements : List α) :
    runs before (elements.map f) = (runs (testOf f before) elements).map (List.map f) := by
  simp only [runs, List.length_map, runsFrom_map]

/-! ## Merges -/

namespace Merging

/-- The merge of the images. -/
def map (f : α → β) (m : Merging α) : Merging β := ⟨m.done.map f, m.first.map f, m.second.map f⟩

/-- The images of an outcome, or of what goes on. -/
def mapEither {γ δ : Type} (f : α → β) (g : γ → δ) : Except (List α) γ → Except (List β) δ
  | .error outcome => .error (outcome.map f)
  | .ok on => .ok (g on)

private theorem elements_map (m : Merging α) : (m.map f).elements = m.elements.map f := by
    simp [elements, map]

theorem passFirst_map (m : Merging α) (count : Nat) :
    (m.map f).passFirst count = (m.passFirst count).map f := by
  simp [passFirst, map, List.map_take, List.map_drop]

theorem passSecond_map (m : Merging α) (count : Nat) :
    (m.map f).passSecond count = (m.passSecond count).map f := by
  simp [passSecond, map, List.map_take, List.map_drop]

private theorem outcome?_map (fromEnd : Bool) (m : Merging α) :
    (m.map f).outcome? fromEnd = (m.outcome? fromEnd).map (List.map f) := by
  obtain ⟨done, first, second⟩ := m
  rcases first with _ | ⟨x, _ | ⟨x', first⟩⟩ <;> rcases second with _ | ⟨y, _ | ⟨y', second⟩⟩ <;>
    cases fromEnd <;> simp [outcome?, map, elements]

theorem ongoing_map (fromEnd : Bool) (m : Merging α) :
    (m.map f).ongoing fromEnd = mapEither f (map f) (m.ongoing fromEnd) := by
  simp only [ongoing, outcome?_map]
  cases m.outcome? fromEnd <;> rfl

private theorem mapEither_bind {γ δ γ' δ' : Type} {g : γ → δ} {g' : γ' → δ'} (start : Except (List α) γ)
    {next : γ → Except (List α) γ'} {next' : δ → Except (List β) δ'}
    (same : ∀ on, next' (g on) = mapEither f g' (next on)) :
    mapEither f g start >>= next' = mapEither f g' (start >>= next) := by
  cases start with
  | error outcome => rfl
  | ok on => exact same on

private theorem step_map (fromEnd : Bool) (m : Merging α) :
    (m.map f).step before fromEnd =
      mapEither f (Prod.map id (map f)) (m.step (testOf f before) fromEnd) := by
  obtain ⟨done, first, second⟩ := m
  cases first with
  | nil => simp [step, map, mapEither, elements]
  | cons x first =>
    cases second with
    | nil => simp [step, map, mapEither, elements]
    | cons y second =>
      have chosen : (if (before (f y) (f x) != fromEnd) = true
            then passSecond (map f ⟨done, x :: first, y :: second⟩) 1
            else passFirst (map f ⟨done, x :: first, y :: second⟩) 1) =
          map f (if (before (f y) (f x) != fromEnd) = true
            then passSecond ⟨done, x :: first, y :: second⟩ 1
            else passFirst ⟨done, x :: first, y :: second⟩ 1) := by
        split
        · exact passSecond_map _ 1
        · exact passFirst_map _ 1
      have stepped : ongoing fromEnd (if (before (f y) (f x) != fromEnd) = true
            then passSecond (map f ⟨done, x :: first, y :: second⟩) 1
            else passFirst (map f ⟨done, x :: first, y :: second⟩) 1) =
          mapEither f (map f) _ := chosen ▸ ongoing_map fromEnd _
      exact (congrArg (· >>= _) stepped).trans (mapEither_bind _ fun _ => rfl)

private theorem leap_map (fromEnd : Bool) (m : Merging α) :
    (m.map f).leap before fromEnd =
      mapEither f (Prod.map id (map f)) (m.leap (testOf f before) fromEnd) := by
  obtain ⟨done, first, second⟩ := m
  cases second with
  | nil => simp only [leap, map, List.map_nil, mapEither, ← elements_map]
  | cons y second =>
    unfold leap
    simp only [map, List.map_cons, lead_map]
    change ongoing fromEnd (passFirst (map f ⟨done, first, y :: second⟩) _) >>= _ = _
    rw [passFirst_map, ongoing_map]
    refine mapEither_bind _ fun m => ?_
    rw [passSecond_map, ongoing_map]
    refine mapEither_bind _ fun m => ?_
    obtain ⟨done, first, second⟩ := m
    cases first with
    | nil => simp only [map, List.map_nil, mapEither, ← elements_map]
    | cons x first =>
      simp only [map, List.map_cons, lead_map]
      change ongoing fromEnd (passSecond (map f ⟨done, x :: first, second⟩) _) >>= _ = _
      rw [passSecond_map, ongoing_map]
      refine mapEither_bind _ fun m => ?_
      rw [passFirst_map, ongoing_map]
      exact mapEither_bind _ fun m => rfl

end Merging

open Merging

private theorem mergeFrom_map (fromEnd : Bool) (fuel : Nat) (pace : Pace) (patience : Nat)
    (m : Merging α) :
    mergeFrom before fromEnd fuel pace patience (m.map f) =
      Prod.map (List.map f) id (mergeFrom (testOf f before) fromEnd fuel pace patience m) := by
  induction fuel generalizing pace patience m with
  | zero => simp only [mergeFrom, elements_map, Prod.map, id]
  | succ fuel ih =>
    cases pace with
    | steps ofSecond streak =>
      simp only [mergeFrom, step_map]
      cases m.step (testOf f before) fromEnd with
      | error outcome => rfl
      | ok on =>
        simp only [mapEither, Prod.map, id, ih]
        generalize (if (on.1 == ofSecond) = true then streak + 1 else 1) = longer
        split <;> rfl
    | leaps =>
      simp only [mergeFrom, leap_map]
      cases m.leap (testOf f before) fromEnd with
      | error outcome => rfl
      | ok on =>
        simp only [mapEither, Prod.map, id, ih]
        split <;> rfl

private theorem mergeOverlap_map (patience : Nat) (first second : List α) :
    mergeOverlap before patience (first.map f) (second.map f) =
      Prod.map (List.map f) id (mergeOverlap (testOf f before) patience first second) := by
  have upward : (⟨[], first.map f, second.map f⟩ : Merging β) = Merging.map f ⟨[], first, second⟩ := rfl
  have downward : (⟨[], (first.map f).reverse, (second.map f).reverse⟩ : Merging β) =
      Merging.map f ⟨[], first.reverse, second.reverse⟩ := by
    simp [Merging.map]
  unfold mergeOverlap
  simp only [List.length_map]
  split
  · rw [upward, passSecond_map, ongoing_map]
    cases Merging.ongoing false (Merging.passSecond ⟨[], first, second⟩ 1) with
    | error outcome => rfl
    | ok m => exact mergeFrom_map _ _ _ _ m
  · rw [downward, passFirst_map, ongoing_map]
    cases Merging.ongoing true (Merging.passFirst ⟨[], first.reverse, second.reverse⟩ 1) with
    | error outcome => simp [mapEither]
    | ok m => simp [mapEither, mergeFrom_map]

private theorem merge_map (patience : Nat) (first second : List α) :
    merge before patience (first.map f) (second.map f) =
      Prod.map (List.map f) id (merge (testOf f before) patience first second) := by
  unfold merge
  simp only [List.head?_map, lead_map]
  cases second.head? with
  | none => rfl
  | some y =>
    simp only [Option.map_some, ← List.map_drop, List.getLast?_map, testOf]
    cases (first.drop (lead false (fun x => !before (f y) (f x)) first)).getLast? with
    | none => simp
    | some x =>
      simp only [Option.map_some, ← List.map_reverse, lead_map, List.length_map, ← List.map_take,
        List.isEmpty_map, mergeOverlap_map]
      split <;> simp [Prod.map, List.map_take, List.map_drop]

/-! ## The whole list -/

/-- The run of the images, waiting at the same place. -/
def Waiting.map (f : α → β) (w : Waiting α) : Waiting β := ⟨w.start, w.elements.map f, w.depth⟩

private theorem settle_map (depth patience : Nat) (last : Waiting α) (below : List (Waiting α)) :
    settle before depth patience (last.map f) (below.map (Waiting.map f)) =
      Prod.map (Waiting.map f) (Prod.map (List.map (Waiting.map f)) id)
        (settle (testOf f before) depth patience last below) := by
  induction below generalizing patience last with
  | nil => rfl
  | cons w rest ih =>
    simp only [List.map_cons, settle, Waiting.map, merge_map]
    split
    · exact ih (merge (testOf f before) patience w.elements last.elements).2
        ⟨w.start, (merge (testOf f before) patience w.elements last.elements).1, 0⟩
    · rfl

private theorem takeUp_map (length patience : Nat) (waiting : List (Waiting α)) (runs : List (List α)) :
    takeUp before length patience (waiting.map (Waiting.map f)) (runs.map (List.map f)) =
      Prod.map (List.map (List.map f)) id (takeUp (testOf f before) length patience waiting runs) := by
  induction runs generalizing patience waiting with
  | nil => simp [takeUp, Waiting.map, Function.comp_def]
  | cons run rest ih =>
    cases waiting with
    | nil => exact ih patience [⟨0, run, 0⟩]
    | cons last below =>
      let depth := borderDepth length length (2 * last.start + last.elements.length)
        (2 * last.start + last.elements.length + last.elements.length + run.length)
      let settled := settle (testOf f before) depth patience last below
      have moved : settle before depth patience (last.map f) (below.map (Waiting.map f)) = _ :=
        settle_map depth patience last below
      simp only [List.map_cons, takeUp]
      simp only [Waiting.map, List.length_map] at moved ⊢
      rw [moved]
      exact ih settled.2.2
        (⟨last.start + last.elements.length, run, 0⟩ :: { settled.1 with depth } :: settled.2.1)

private theorem mergeAll_map (fuel patience : Nat) (left : List (List α)) :
    mergeAll before fuel patience (left.map (List.map f)) =
      (mergeAll (testOf f before) fuel patience left).map f := by
  induction fuel generalizing patience left with
  | zero => simp [mergeAll, List.map_flatten]
  | succ fuel ih =>
    rcases left with _ | ⟨last, _ | ⟨middle, _ | ⟨first, more⟩⟩⟩
    · rfl
    · rfl
    · simp [mergeAll, merge_map]
    · simp only [List.map_cons, mergeAll, List.length_map, merge_map, Prod.map, id]
      split
      · exact ih _ (_ :: _ :: _)
      · exact ih _ (_ :: _ :: _)

/-- The images in order are the images of the elements in the order of their images. -/
theorem sort_map (before : β → β → Bool) (elements : List α) :
    sort before (elements.map f) = (sort (testOf f before) elements).map f := by
  have taken : takeUp before elements.length longLead ([].map (Waiting.map f))
      ((runs (testOf f before) elements).map (List.map f)) = _ :=
    takeUp_map elements.length longLead [] _
  rw [List.map_nil] at taken
  simp only [sort, List.length_map, runs_map]
  rw [taken]
  simp only [Prod.map, List.length_map, mergeAll_map, id]

end ResourceGraph.Sorting
