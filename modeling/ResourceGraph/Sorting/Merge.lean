import ResourceGraph.Sorting.Run

/-!
Merging two neighbouring runs. The merge starts at the end where the shorter run lies, and goes
element by element as long as both runs win in turns, and in leaps over many elements once one of
them keeps winning. How long a run has to win before leaping is tried, the patience, goes down while
leaps pay off and up when they do not, and is carried on to the next merge.
-/

namespace ResourceGraph.Sorting

variable {α : Type}

/-- A merge under way: what is done, the last first, and what is left of the first and the second
run. Both are listed from the end that the merge starts at. -/
structure Merging (α : Type) where
  done : List α
  first : List α
  second : List α

namespace Merging

/-- All elements, the done ones first. -/
def elements (m : Merging α) : List α := m.done.reverse ++ (m.first ++ m.second)

/-- So many elements of the first run are done. -/
def passFirst (m : Merging α) (count : Nat) : Merging α :=
  { m with done := (m.first.take count).reverse ++ m.done, first := m.first.drop count }

/-- So many elements of the second run are done. -/
def passSecond (m : Merging α) (count : Nat) : Merging α :=
  { m with done := (m.second.take count).reverse ++ m.done, second := m.second.drop count }

/-- The outcome, where nothing is left to compare. Either one run has ended, or only that element is
left of the run at the far end which is known to come after all others of the merge: the last of the
first run when merging from the start, the first of the second run when merging from the end. -/
def outcome? (fromEnd : Bool) (m : Merging α) : Option (List α) :=
  match m.first, m.second, fromEnd with
  | [], _, _ | _, [], _ | _, [_], true => some m.elements
  | [x], second, false => some (m.done.reverse ++ (second ++ [x]))
  | _, _, _ => none

/-- The merge, unless it has come to its outcome. -/
def ongoing (fromEnd : Bool) (m : Merging α) : Except (List α) (Merging α) :=
  match m.outcome? fromEnd with
  | some outcome => .error outcome
  | none => .ok m

/-- One element is done: the one of the second run if it goes ahead of the one of the first. -/
def step (before : α → α → Bool) (fromEnd : Bool) (m : Merging α) :
    Except (List α) (Bool × Merging α) :=
  match m.first, m.second with
  | x :: _, y :: _ => do
    let taken := before y x != fromEnd
    let next ← ongoing fromEnd (if taken then m.passSecond 1 else m.passFirst 1)
    return (taken, next)
  | _, _ => .error m.elements

/-- All elements of the first run that go ahead of the next one of the second are done, then that
one, and the same with the runs exchanged. The longer lead is told. -/
def leap (before : α → α → Bool) (fromEnd : Bool) (m : Merging α) :
    Except (List α) (Nat × Merging α) :=
  match m.second with
  | [] => .error m.elements
  | y :: _ => do
    let ahead := lead fromEnd (fun x => before y x == fromEnd) m.first
    let m ← ongoing fromEnd (m.passFirst ahead)
    let m ← ongoing fromEnd (m.passSecond 1)
    match m.first with
    | [] => .error m.elements
    | x :: _ =>
      let behind := lead fromEnd (fun y => before y x != fromEnd) m.second
      let m ← ongoing fromEnd (m.passSecond behind)
      let m ← ongoing fromEnd (m.passFirst 1)
      return (max ahead behind, m)

end Merging

/-- How a merge goes on: element by element, with the side that won last and how often in a row, or
in leaps. -/
inductive Pace
  | steps (ofSecond : Bool) (streak : Nat)
  | leaps

/-- Leads of this length make leaps pay off. -/
def longLead : Nat := 7

/-- The rest of a merge, and the patience after it. -/
def mergeFrom (before : α → α → Bool) (fromEnd : Bool) :
    Nat → Pace → Nat → Merging α → List α × Nat
  | 0, _, patience, m => (m.elements, patience)
  | fuel + 1, .steps ofSecond streak, patience, m =>
    match m.step before fromEnd with
    | .error outcome => (outcome, patience)
    | .ok (taken, next) =>
      let longer := if taken == ofSecond then streak + 1 else 1
      if longer < patience then mergeFrom before fromEnd fuel (.steps taken longer) patience next
      else mergeFrom before fromEnd fuel .leaps patience next
  | fuel + 1, .leaps, patience, m =>
    match m.leap before fromEnd with
    | .error outcome => (outcome, patience)
    | .ok (longest, next) =>
      if longest < longLead then
        mergeFrom before fromEnd fuel (.steps false 0) (patience + 1) next
      else mergeFrom before fromEnd fuel .leaps (max (patience - 1) 1) next

/-- The merge of two runs, of which the second starts and the first ends with an element that has to
move. -/
def mergeOverlap (before : α → α → Bool) (patience : Nat) (first second : List α) : List α × Nat :=
  let fuel := first.length + second.length
  if first.length ≤ second.length then
    match Merging.ongoing false (Merging.passSecond ⟨[], first, second⟩ 1) with
    | .error outcome => (outcome, patience)
    | .ok m => mergeFrom before false fuel (.steps false 0) patience m
  else
    match Merging.ongoing true (Merging.passFirst ⟨[], first.reverse, second.reverse⟩ 1) with
    | .error outcome => (outcome.reverse, patience)
    | .ok m =>
      let (merged, after) := mergeFrom before true fuel (.steps false 0) patience m
      (merged.reverse, after)

/-- The merge of two runs, and the patience after it. Elements of the first that come before all of
the second stay where they are, and so do those of the second that come after all of the first. -/
def merge (before : α → α → Bool) (patience : Nat) (first second : List α) : List α × Nat :=
  match second.head? with
  | none => (first, patience)
  | some y =>
    let settled := lead false (fun x => !before y x) first
    let left := first.drop settled
    match left.getLast? with
    | none => (first ++ second, patience)
    | some x =>
      let after := lead true (fun y => !before y x) second.reverse
      let right := second.take (second.length - after)
      let (merged, patience) :=
        if right.isEmpty then (left, patience) else mergeOverlap before patience left right
      (first.take settled ++ merged ++ second.drop (second.length - after), patience)

end ResourceGraph.Sorting
