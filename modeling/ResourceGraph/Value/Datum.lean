import ResourceGraph.Value.Basic

/-!
Data whose containers may be shared: a share is the place in a store where a container is kept once
for all who hold it.
-/

namespace ResourceGraph

/-- A place in a store. -/
structure Share where
  cell : Nat
  deriving DecidableEq, Repr

/-- Nested data whose containers may be shared. -/
abbrev Datum := Value Share

end ResourceGraph
