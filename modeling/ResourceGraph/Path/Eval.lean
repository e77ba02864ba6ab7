import ResourceGraph.Path.Function
import ResourceGraph.Path.Text

/-!
The meaning of path expressions. A query that does not fit a value gives null, never a failure; only
functions, slices and orderings can fail, and evaluation that goes too deep. What a query selects is
the value itself, share included; what it builds is new and kept in the store.
-/

namespace ResourceGraph.Path

open Ask

/-- Empty texts and containers, null and false are false; zero is not. -/
def isFalse : Datum → Bool
  | .null => true
  | .bool b => !b
  | .str s => s.isEmpty
  | .list items => items.isEmpty
  | .object fields => fields.isEmpty
  | _ => false

/-- The member of an object, or null. -/
def member (name : String) (v : Datum) : Ask Datum := do
  return ((← opened v).member? name).getD .null

/-- A place counted from the start of a list, when it lies inside. -/
def placeIn? (size : Nat) (place : Int) : Option Nat :=
  let fromStart := if place < 0 then place + size else place
  if 0 ≤ fromStart && fromStart < size then some fromStart.toNat else none

/-- The element of a list, or null. -/
def element (place : Int) (v : Datum) : Ask Datum := do
  match ← opened v with
  | .list items => return ((placeIn? items.length place).bind (items[·]?)).getD .null
  | _ => return .null

/-- A slice's bound, counted from the start and kept within the list. -/
def bound (size step : Int) (given : Option Int) (absent : Int) : Int :=
  let lowest : Int := if step < 0 then -1 else 0
  let highest : Int := if step < 0 then size - 1 else size
  match given with
  | none => absent
  | some n =>
    let fromStart := if n < 0 then n + size else n
    if fromStart < lowest then lowest else if highest < fromStart then highest else fromStart

/-- The places that a slice takes from a list, in order. -/
def slicePlaces (size : Nat) (start stop : Option Int) (step : Int) : List Nat :=
  let n := Int.ofNat size
  let low := if step < 0 then bound n step start (n - 1) else bound n step start 0
  let high := if step < 0 then bound n step stop (-1) else bound n step stop n
  let count := if step < 0 then (low - high - step - 1).tdiv (-step)
    else (high - low + step - 1).tdiv step
  (List.range count.toNat).map fun i : Nat => (low + step * Int.ofNat i).toNat

/-- A part of a list, or null. -/
def part (start stop step : Option Int) (v : Datum) : Ask Datum := do
  match ← opened v with
  | .list items =>
    let stride := step.getD 1
    if stride == 0 then fail .zeroStep
    else build (.list ((slicePlaces items.length start stop stride).filterMap (items[·]?)))
  | _ => return .null

/-- A list with its elements that are lists opened, or null. -/
def flattened (v : Datum) : Ask Datum := do
  let store ← get
  match store.opened v with
  | .list items =>
    build (.list (items.flatMap fun item =>
      match store.opened item with
      | .list inner => inner
      | _ => [item]))
  | _ => return .null

/-- The value is null. -/
def isNull : Datum → Bool
  | .null => true
  | _ => false

/-- Asks every element and keeps the results that are not null. -/
def askEach (ask : Datum → Ask Datum) : List Datum → Ask (List Datum)
  | [] => return []
  | item :: rest => do
    let found ← ask item
    let others ← askEach ask rest
    return if isNull found then others else found :: others

/-- Asks every element that meets a condition. -/
def askWhere (condition ask : Datum → Ask Datum) : List Datum → Ask (List Datum)
  | [] => return []
  | item :: rest => do
    if isFalse (← opened (← condition item)) then askWhere condition ask rest
    else
      let found ← ask item
      let others ← askWhere condition ask rest
      return if isNull found then others else found :: others

/-- Numbers and texts have an order; a number and a text have none among each other. -/
def ordered (holds : SortKey → SortKey → Except Fault Bool) (a b : Datum) : Ask Datum := do
  match SortKey.of? (← opened a), SortKey.of? (← opened b) with
  | some x, some y =>
    match holds x y with
    | .ok outcome => return .bool outcome
    | .error fault => fail fault
  | _, _ => return .null

/-- The first key is not after the second, undefined numbers excepted. -/
def atMost (a b : SortKey) : Except Fault Bool :=
  match a, b with
  | .number x, .number y => .ok (x.below y || x.same y)
  | .text s, .text t => .ok (!(t < s))
  | _, _ => .error .mixedOrder

/-- Equality of results: a truth value never equals a number. -/
def equal (a b : Datum) : Ask Bool := do
  match ← opened a, ← opened b with
  | .bool x, .bool y => return x == y
  | .bool _, _ | _, .bool _ => return false
  | _, _ => same a b

/-- The outcome of a comparison. -/
def compareValues (c : Comparison) (a b : Datum) : Ask Datum :=
  match c with
  | .equal => do return .bool (← equal a b)
  | .unequal => do return .bool (!(← equal a b))
  | .below => ordered SortKey.before a b
  | .atMost => ordered atMost a b
  | .above => ordered (fun x y => y.before x) a b
  | .atLeast => ordered (fun x y => atMost y x) a b

/-- The steps that asking one query takes, besides those of the queries inside it. -/
def stepsOfQuery : Nat := 2

/-- The result of a query, with room for so many steps that are under way at once. A query that is
asked by a function is asked inside the call, wherever it was written. Every query takes room, so
that fuel of the same amount does not run out first. -/
def evalTo : Nat → Nat → Expr → Datum → Ask Datum
  | 0, _, _, _ => fail .endless
  | fuel + 1, room, e, v =>
    if room < stepsOfQuery then fail .endless
    else
      let ask := evalTo fuel (room - stepsOfQuery)
      match e with
      | .current => return v
      | .field name => member name v
      | .index place => element place v
      | .slice start stop step => part start stop step v
      | .chain steps => steps.foldlM (fun found step => ask step found) v
      | .pipe left right => do ask right (← ask left v)
      | .flatten list => do flattened (← ask list v)
      | .each list rhs => do
        match ← opened (← ask list v) with
        | .list items => build (.list (← askEach (ask rhs) items))
        | _ => return .null
      | .eachValue object rhs => do
        match (← opened (← ask object v)).entries? with
        | some entries => build (.list (← askEach (ask rhs) (entries.map Prod.snd)))
        | none => return .null
      | .filter list rhs condition => do
        match ← opened (← ask list v) with
        | .list items => build (.list (← askWhere (ask condition) (ask rhs) items))
        | _ => return .null
      | .compare c left right => do
        let a ← ask left v
        let b ← ask right v
        compareValues c a b
      | .either left right => do
        let a ← ask left v
        if isFalse (← opened a) then ask right v else return a
      | .both left right => do
        let a ← ask left v
        if isFalse (← opened a) then return a else ask right v
      | .negate operand => do return .bool (isFalse (← opened (← ask operand v)))
      | .literal value => return value
      | .listOf elements =>
        if isNull v then return .null
        else do build (.list (← elements.mapM fun element => ask element v))
      | .objectOf members =>
        if isNull v then return .null
        else do
          let found ← members.mapM fun (key, member) => do
            return (key, ← evalTo fuel (room - 2 * stepsOfQuery) member v)
          build (.object (Keyed.ofList found))
      | .call function arguments => do
        let given ← arguments.mapM fun argument => ask argument v
        callFunction (fun steps => evalTo fuel (room - stepsOfQuery - steps)) function given
      | .quotation query => ExceptT.lift (Store.keepCell (.query query))

/-- How many steps of asking may be under way at once. -/
def depthOfEval : Nat := 993

/-- The result of a query. -/
def eval (e : Expr) (v : Datum) : Ask Datum := evalTo depthOfEval depthOfEval e v

end ResourceGraph.Path
