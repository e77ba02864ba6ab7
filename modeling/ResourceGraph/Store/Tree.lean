import ResourceGraph.Store.Basic
import ResourceGraph.Value.Display

/-!
What data of the store stands for: the tree that it spells out, the text that shows it, its equality
by content, and copies of it. Data that contains itself spells out no tree, and to compare it with
other such data has no end; its text leaves out what it is inside already.
-/

namespace ResourceGraph

namespace Store

/-- The tree that a datum spells out with at most `depth` shares one inside another. A query stands
for nothing. -/
def treeTo (s : Store) : Nat → Datum → Option Json
  | 0, v => v.bind? fun _ => none
  | depth + 1, v => v.bind? fun share =>
    match s.cell? share with
    | some (.data content) => treeTo s depth content
    | _ => some .null

/-- The tree that a datum spells out, unless it contains itself: without that, no more shares than
there are places lie inside each other, and one that stands for nothing. -/
def tree? (s : Store) (v : Datum) : Option Json := treeTo s (s.cells.size + 1) v

/-- How many containers may lie inside each other where data is recorded or shown. The limit is one
of the recorder, such as a client that writes down what it is asked with, and not one of the data. -/
def shownDepth : Nat := 497

/-- The tree that is shown for a datum, unless it goes too deep. -/
def shownTree? (s : Store) (v : Datum) : Option Json := treeTo s shownDepth v

/-- What is left out where a datum is written: a container inside itself, and every query. -/
inductive Omission
  | list | object | query
  deriving DecidableEq, Repr

/-- The text for what is left out. -/
def Omission.text : Omission → String
  | list => "[...]"
  | object => "\x7b...\x7d"
  | query => ""

/-- What stands for a container inside itself. -/
def omission : Datum → Omission
  | .list _ => .list
  | _ => .object

/-- What is written of a datum, at most `depth` shares deep and inside the given ones. -/
def unfoldedTo (s : Store) : Nat → List Share → Datum → Value Omission
  | 0, _, _ => .shared .query
  | depth + 1, inside, v => v.bind fun share =>
    match s.cell? share with
    | some (.data content) =>
      if inside.contains share then .shared (omission content)
      else unfoldedTo s depth (share :: inside) content
    | _ => .shared .query

/-- What is written of a datum. No share lies inside itself there, so that the places there are
limit the depth. -/
def unfolded (s : Store) (v : Datum) : Value Omission := s.unfoldedTo (s.cells.size + 2) [] v

/-- A datum as plain text, unless a whole number in it is too long to be written. -/
def textOf (s : Store) (v : Datum) : Option String :=
  let whole := s.unfolded v
  if whole.isTooLong then none else some (whole.textWith Omission.text)

/-- A test holds for the pairs of two lists, one after another, until it fails or has no outcome. -/
def allPairs? {α : Type} (test : α → α → Option Bool) : List α → List α → Option Bool
  | [], [] => some true
  | x :: xs, y :: ys =>
    match test x y with
    | some true => allPairs? test xs ys
    | outcome => outcome
  | _, _ => some false

/-- A test holds for every member of one object and the member of another under the same key. -/
def allMembers? (test : Datum → Datum → Option Bool) (other : List (String × Datum)) :
    List (String × Datum) → Option Bool
  | [] => some true
  | (key, x) :: rest =>
    match Keyed.get? other key with
    | none => some false
    | some y =>
      match test x y with
      | some true => allMembers? test other rest
      | outcome => outcome

/-- A test holds for every entry of one object and the entry of another under the same key. -/
def allEntries? (test : Datum → Datum → Option Bool) (other : List (Datum × Datum)) :
    List (Datum × Datum) → Option Bool
  | [] => some true
  | (key, x) :: rest =>
    match other.find? fun entry => Value.sameKey entry.1 key with
    | none => some false
    | some (_, y) =>
      match test x y with
      | some true => allEntries? test other rest
      | outcome => outcome

/-- Equality by content, looking at most `depth` containers deep. Inside containers what is one
thing is equal without being looked at. -/
def sameTo (s : Store) : Nat → Datum → Datum → Option Bool
  | 0, _, _ => none
  | depth + 1, a, b =>
    let inside (x y : Datum) := if Value.identical x y then some true else sameTo s depth x y
    match s.opened a, s.opened b with
    | .list xs, .list ys =>
      if xs.length == ys.length then allPairs? inside xs ys else some false
    | .object xs, .object ys =>
      if xs.length == ys.length then allMembers? inside ys xs else some false
    | .table xs, .table ys =>
      if xs.length == ys.length then allEntries? inside ys xs else some false
    | .shared x, .shared y => some (x == y)
    | x, y => some (Value.sameScalar x y)

/-- How many containers inside each other are compared. -/
def comparedDepth : Nat := 990

/-- Equality by content: whole numbers equal floats of the same value, truth values count as zero
and one, and the order of an object's members does not matter. It has no outcome where both sides go
too deep and differ nowhere before, as sides that contain themselves do. -/
def same? (s : Store) (a b : Datum) : Option Bool := sameTo s comparedDepth a b

/-- One thing, or equal by content. -/
def alike? (s : Store) (a b : Datum) : Option Bool :=
  if Value.identical a b then some true else s.same? a b

mutual

/-- The shares that a datum holds, not looking through them. -/
def heldBy : Datum → List Share
  | .shared share => [share]
  | .list items => heldByItems items
  | .object fields => heldByFields fields
  | .table entries => heldByEntries entries
  | _ => []

/-- The shares that elements hold. -/
def heldByItems : List Datum → List Share
  | [] => []
  | v :: rest => heldBy v ++ heldByItems rest

/-- The shares that members hold. -/
def heldByFields : List (String × Datum) → List Share
  | [] => []
  | (_, v) :: rest => heldBy v ++ heldByFields rest

/-- The shares that entries hold under their keys. -/
def heldByEntries : List (Datum × Datum) → List Share
  | [] => []
  | (_, v) :: rest => heldBy v ++ heldByEntries rest

end

/-- The container at a place, if there is one. -/
def container? (s : Store) (share : Share) : Option Datum :=
  match s.cell? share with
  | some (.data (.list items)) => some (.list items)
  | some (.data (.object fields)) => some (.object fields)
  | some (.data (.table entries)) => some (.table entries)
  | _ => none

/-- The containers that can be reached from pending shares, added to those that were seen. -/
def reachedFrom (s : Store) : Nat → List Share → List Share → List Share
  | 0, _, seen => seen
  | _, [], seen => seen
  | fuel + 1, share :: pending, seen =>
    if seen.contains share then reachedFrom s fuel pending seen
    else
      match s.container? share with
      | none => reachedFrom s fuel pending seen
      | some content => reachedFrom s fuel (heldBy content ++ pending) (share :: seen)

/-- How many shares all places hold, and so how often one can be met. -/
def heldCount (s : Store) : Nat :=
  s.cells.foldl (fun count cell =>
    match cell with
    | .data content => count + (heldBy content).length
    | .query _ => count) 0

/-- A copy of a datum. The containers of the copy are new, and shared among each other as the copied
ones are. -/
def copy (v : Datum) : StateM Store Datum := fun s =>
  let held := heldBy v
  let reached := s.reachedFrom (held.length + s.heldCount) held []
  let moved (share : Share) : Datum :=
    match reached.idxOf? share with
    | some index => .shared ⟨s.cells.size + index⟩
    | none => .shared share
  let copies := reached.map fun share => Cell.data (((s.container? share).getD .null).bind moved)
  (v.bind moved, { s with cells := s.cells ++ copies.toArray })

end Store

end ResourceGraph
