import ResourceGraph.Path.Expr
import ResourceGraph.Value.Members

/-!
The store: what several holders share. A resource's data, the parts of a response and whatever a
path expression builds of them are kept here once, and a write through one holder is seen by all of
them. The containers that a path expression writes out are kept with the expression, which is read
only once.
-/

namespace ResourceGraph

/-- What is kept at a place: a container, a number that is a thing of its own, or a query. -/
inductive Cell
  | data (content : Datum)
  | query (asked : Path.Expr)

/-- What is shared, and the path expressions that were read. -/
structure Store where
  cells : Array Cell := #[]
  expressions : Keyed Path.Expr := []

namespace Store

/-- What is kept at a place. -/
def cell? (s : Store) (share : Share) : Option Cell := s.cells[share.cell]?

/-- What a datum is, looking through one share. A share that stays is a query. -/
def opened (s : Store) : Datum → Datum
  | .shared share =>
    match s.cell? share with
    | some (.data content) => content
    | _ => .shared share
  | v => v

/-- Keeps something and gives its share. -/
def keepCell (cell : Cell) : StateM Store Datum :=
  modifyGet fun s => (.shared ⟨s.cells.size⟩, { s with cells := s.cells.push cell })

/-- Keeps a container and gives its share. -/
def keep (content : Datum) : StateM Store Datum := keepCell (.data content)

/-- Changes what is kept at a place. -/
def replace (share : Share) (content : Datum) : StateM Store Unit :=
  modify fun s => { s with cells := s.cells.setIfInBounds share.cell (.data content) }

mutual

/-- Keeps every container of a datum, inner ones first. -/
def share : Datum → StateM Store Datum
  | .list items => do keep (.list (← shareItems items))
  | .object fields => do keep (.object (← shareFields fields))
  | .table entries => do keep (.table (← shareEntries entries))
  | v => pure v

/-- Keeps the containers of elements. -/
def shareItems : List Datum → StateM Store (List Datum)
  | [] => pure []
  | v :: rest => do
    let first ← share v
    return first :: (← shareItems rest)

/-- Keeps the containers of members. -/
def shareFields : List (String × Datum) → StateM Store (List (String × Datum))
  | [] => pure []
  | (key, v) :: rest => do
    let first ← share v
    return (key, first) :: (← shareFields rest)

/-- Keeps the containers of entries. Keys are none. -/
def shareEntries : List (Datum × Datum) → StateM Store (List (Datum × Datum))
  | [] => pure []
  | (key, v) :: rest => do
    let first ← share v
    return (key, first) :: (← shareEntries rest)

end

/-- Keeps the containers inside a container, which itself has its place already. -/
def shareInside : Datum → StateM Store Datum
  | .list items => do return .list (← shareItems items)
  | .object fields => do return .object (← shareFields fields)
  | .table entries => do return .table (← shareEntries entries)
  | v => pure v

mutual

/-- Keeps the containers that an expression writes out. -/
def shareLiterals : Path.Expr → StateM Store Path.Expr
  | .literal value => do return .literal (← share value)
  | .chain steps => do return .chain (← shareAll steps)
  | .pipe left right => do return .pipe (← shareLiterals left) (← shareLiterals right)
  | .flatten list => do return .flatten (← shareLiterals list)
  | .each list rhs => do return .each (← shareLiterals list) (← shareLiterals rhs)
  | .eachValue object rhs => do return .eachValue (← shareLiterals object) (← shareLiterals rhs)
  | .filter list rhs condition => do
    return .filter (← shareLiterals list) (← shareLiterals rhs) (← shareLiterals condition)
  | .compare c left right => do
    return .compare c (← shareLiterals left) (← shareLiterals right)
  | .either left right => do return .either (← shareLiterals left) (← shareLiterals right)
  | .both left right => do return .both (← shareLiterals left) (← shareLiterals right)
  | .negate operand => do return .negate (← shareLiterals operand)
  | .listOf elements => do return .listOf (← shareAll elements)
  | .objectOf members => do return .objectOf (← shareMembers members)
  | .call function arguments => do return .call function (← shareAll arguments)
  | .quotation query => do return .quotation (← shareLiterals query)
  | .current => pure .current
  | .field name => pure (.field name)
  | .index place => pure (.index place)
  | .slice start stop step => pure (.slice start stop step)

/-- Keeps the containers that expressions write out. -/
def shareAll : List Path.Expr → StateM Store (List Path.Expr)
  | [] => pure []
  | e :: rest => do
    let first ← shareLiterals e
    return first :: (← shareAll rest)

/-- Keeps the containers that the expressions of members write out. -/
def shareMembers : List (String × Path.Expr) → StateM Store (List (String × Path.Expr))
  | [] => pure []
  | (key, e) :: rest => do
    let first ← shareLiterals e
    return (key, first) :: (← shareMembers rest)

end

end Store

end ResourceGraph
