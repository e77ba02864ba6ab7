import ResourceGraph.Sorting.Merge

/-!
Sorting by a test that says which of two elements comes first. Elements that neither comes before
the other keep their order. A list is split into runs, and runs next to each other are merged, those
first that lie deepest when the list is halved again and again.
-/

namespace ResourceGraph.Sorting

variable {α : Type}

/-- A run that waits to be merged: the place that it starts at, and how deep the border after it
lies. -/
structure Waiting (α : Type) where
  start : Nat
  elements : List α
  depth : Nat := 0

/-- How often a length has to be halved for its halves to tell the middles of two neighbouring runs
apart. Places are doubled, so that middles are whole numbers. -/
def borderDepth (length : Nat) : Nat → Nat → Nat → Nat
  | 0, _, _ => 1
  | fuel + 1, first, second =>
    if length ≤ first then
      borderDepth length fuel (2 * (first - length)) (2 * (second - length)) + 1
    else if length ≤ second then 1
    else borderDepth length fuel (2 * first) (2 * second) + 1

/-- The last run merged with those before it that end at a deeper border, the runs that are left,
and the patience after it. -/
def settle (before : α → α → Bool) (depth patience : Nat) (last : Waiting α) :
    List (Waiting α) → Waiting α × List (Waiting α) × Nat
  | [] => (last, [], patience)
  | below :: rest =>
    if depth < below.depth then
      let (merged, patience) := merge before patience below.elements last.elements
      settle before depth patience ⟨below.start, merged, 0⟩ rest
    else (last, below :: rest, patience)

/-- Runs taken up one after another, the last one first. -/
def takeUp (before : α → α → Bool) (length : Nat) :
    Nat → List (Waiting α) → List (List α) → List (List α) × Nat
  | patience, waiting, [] => (waiting.map Waiting.elements, patience)
  | patience, [], run :: rest => takeUp before length patience [⟨0, run, 0⟩] rest
  | patience, last :: below, run :: rest =>
    let middle := 2 * last.start + last.elements.length
    let depth := borderDepth length length middle
      (middle + last.elements.length + run.length)
    let next := last.start + last.elements.length
    let (last, below, patience) := settle before depth patience last below
    takeUp before length patience (⟨next, run, 0⟩ :: { last with depth } :: below) rest

/-- The merge of all runs that are left, the last one first. Of three the middle one goes to the
shorter side. -/
def mergeAll (before : α → α → Bool) : Nat → Nat → List (List α) → List α
  | 0, _, left => left.reverse.flatten
  | _ + 1, _, [] => []
  | _ + 1, _, [only] => only
  | fuel + 1, patience, last :: middle :: rest =>
    match rest with
    | first :: more =>
      if first.length < last.length then
        let (merged, patience) := merge before patience first middle
        mergeAll before fuel patience (last :: merged :: more)
      else
        let (merged, patience) := merge before patience middle last
        mergeAll before fuel patience (merged :: first :: more)
    | [] => (merge before patience middle last).1

/-- The elements in order. -/
def sort (before : α → α → Bool) (elements : List α) : List α :=
  let (left, patience) := takeUp before elements.length longLead [] (runs before elements)
  mergeAll before left.length patience left

end ResourceGraph.Sorting
