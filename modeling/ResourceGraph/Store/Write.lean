import ResourceGraph.Store.Basic
import ResourceGraph.Target.Write

/-!
Writing to parameters whose containers may be shared: a write passes through a share into the
container that is kept there, and all its holders see it.
-/

namespace ResourceGraph.Store

/-- Reaching inside a datum: an edit of a share changes the container for all its holders. -/
def reach (edit : Edit (StateM Store) Share) : Edit (StateM Store) Share
  | .shared share => do
    match (← get).cell? share with
    | some (.data content) => do
      let edited ← edit content
      replace share (← shareInside edited.after)
      return ⟨.shared share, edited.fault⟩
    | _ => edit (.shared share)
  | v => edit v

/-- Writes a value into parameters whose containers may be shared. -/
def write (address : Address) (value : Datum) (params : List (String × Datum)) :
    StateM Store (Edited (List (String × Datum))) :=
  Target.writeWith reach address value params

end ResourceGraph.Store
