import ResourceGraph.Value.Datum

/-!
Path expressions: queries that select, project, filter and reshape nested data. This module holds
their syntax only; text is read in `Path.Text`, meaning is given in `Path.Eval`.
-/

namespace ResourceGraph.Path

/-- The comparisons of filter conditions. -/
inductive Comparison
  | equal | unequal | below | atMost | above | atLeast
  deriving DecidableEq, Repr

/-- A query over nested data. -/
inductive Expr
  /-- The value itself. -/
  | current
  /-- The member of an object. -/
  | field (name : String)
  /-- The element of a list; negative places count from its end. -/
  | index (place : Int)
  /-- Every `step`-th element of a list between two places. -/
  | slice (start stop step : Option Int)
  /-- Queries asked one after another, each of what the one before it found. -/
  | chain (steps : List Expr)
  /-- The right query, asked of what the left one found, whatever projections the left one has. -/
  | pipe (left right : Expr)
  /-- A list with its elements that are lists opened, one level deep. -/
  | flatten (list : Expr)
  /-- The query asked of every element of a list, nulls left out. -/
  | each (list rhs : Expr)
  /-- The query asked of every value of an object, nulls left out. -/
  | eachValue (object rhs : Expr)
  /-- The query asked of the elements that meet a condition, nulls left out. -/
  | filter (list rhs condition : Expr)
  | compare (comparison : Comparison) (left right : Expr)
  /-- The left result, or the right one when the left is false. -/
  | either (left right : Expr)
  /-- The left result when it is false, or the right one. -/
  | both (left right : Expr)
  | negate (operand : Expr)
  /-- A value written in the expression. A container among them is one and the same each time. -/
  | literal (value : Datum)
  /-- A new list of results. -/
  | listOf (elements : List Expr)
  /-- A new object of results. -/
  | objectOf (members : List (String × Expr))
  | call (function : String) (arguments : List Expr)
  /-- The query itself as a value, which functions can ask. -/
  | quotation (query : Expr)
  deriving Inhabited

namespace Expr

/-- A place or a part of a list is what the query selects last of all, so that a further place or
slice applies to it directly instead of starting a projection. -/
def selectsPlace : Expr → Bool
  | chain steps =>
    match steps.getLast? with
    | some (index _) | some (slice ..) => true
    | _ => false
  | _ => false

/-- The query followed by another step. -/
def followedBy (first : Expr) (next : Expr) : Expr :=
  match first with
  | chain steps => chain (steps ++ [next])
  | _ => chain [first, next]

end Expr

end ResourceGraph.Path
