/-!
Runs: parts of a list that are in order, by a test that says which of two elements comes first. A
run that a list starts with is found by looking at neighbours, and made longer by putting the
elements after it into their places. Where the test is no order at all, as with undefined numbers,
these rules still fix the outcome.
-/

namespace ResourceGraph.Sorting

variable {α : Type}

/-- Where the elements between two bounds stop to pass a test, found by halving. Of two middle
places the later one is looked at, or the earlier one where the elements are listed from their end. -/
def boundary (fromEnd : Bool) (passes : α → Bool) (elements : List α) : Nat → Nat → Nat → Nat
  | 0, low, _ => low
  | fuel + 1, low, high =>
    if low < high then
      let half := (high - low) / 2
      let middle := if fromEnd then high - 1 - half else low + half
      match elements[middle]? with
      | some y =>
        if passes y then boundary fromEnd passes elements fuel (middle + 1) high
        else boundary fromEnd passes elements fuel low middle
      | none => low
    else low

/-- Strides that double: the last place known to pass a test, and the place of the next stride,
which does not pass or is the end. -/
def stride (passes : α → Bool) (elements : List α) : Nat → Nat → Nat → Nat × Nat
  | 0, known, next => (known, next)
  | fuel + 1, known, next =>
    match elements[next]? with
    | some y => if passes y then stride passes elements fuel next (2 * next + 1) else (known, next)
    | none => (known, elements.length)

/-- How many elements at the start of a list pass a test that holds up to some place: striding out
first, halving after. -/
def lead (fromEnd : Bool) (passes : α → Bool) : List α → Nat
  | [] => 0
  | first :: rest =>
    if passes first then
      let (known, next) := stride passes (first :: rest) (rest.length + 1) 0 1
      boundary fromEnd passes (first :: rest) (rest.length + 1) (known + 1) next
    else 0

/-- How many elements of a list, the one before them included, form a run: each comes before the one
it follows, or none does. -/
def runLength (before : α → α → Bool) (falling : Bool) (last : α) : List α → Nat
  | [] => 1
  | next :: rest =>
    if before next last == falling then runLength before falling next rest + 1 else 1

/-- The run that a list starts with, in rising order, and the rest. -/
def splitRun (before : α → α → Bool) : List α → List α × List α
  | [] => ([], [])
  | [only] => ([only], [])
  | first :: second :: rest =>
    let all := first :: second :: rest
    let falling := before second first
    let length := runLength before falling second rest + 1
    (if falling then (all.take length).reverse else all.take length, all.drop length)

/-- Sorted elements with another put in its place, after all that it does not come before. -/
def insert (before : α → α → Bool) (sorted : List α) (x : α) : List α :=
  let place := boundary false (fun y => !before x y) sorted sorted.length 0 sorted.length
  sorted.take place ++ x :: sorted.drop place

/-- The runs of a list. A run that is too short takes in elements after it. -/
def runsFrom (before : α → α → Bool) (shortest : Nat) : Nat → List α → List (List α)
  | 0, elements => if elements.isEmpty then [] else [elements]
  | _ + 1, [] => []
  | fuel + 1, first :: more =>
    let (run, rest) := splitRun before (first :: more)
    let missing := shortest - run.length
    (rest.take missing).foldl (insert before) run ::
      runsFrom before shortest fuel (rest.drop missing)

/-- Lists of this length and longer are split into several runs. -/
def longLength : Nat := 64

/-- How long runs have to be, so that about a power of two of them make up the list. -/
def shortestRun : Nat → Nat → Bool → Nat
  | 0, length, _ => length
  | fuel + 1, length, odd =>
    if length < longLength then length + odd.toNat
    else shortestRun fuel (length / 2) (odd || length % 2 == 1)

/-- The runs that a list is made of. -/
def runs (before : α → α → Bool) (elements : List α) : List (List α) :=
  runsFrom before (shortestRun elements.length elements.length false) elements.length elements

end ResourceGraph.Sorting
