import ResourceGraph.Proofs.Passing

/-!
Writes that pass through no container of the store. Such a write leaves the store as it is. What any
write does depends on the parameters only through what they have under the key of its address, and
it changes nothing under other keys.
-/

namespace ResourceGraph

open ResourceGraph.Store

namespace Store

variable {s : Store} {address : Address} {value : Datum} {params others : Keyed Datum}

variable {passes : Store → Datum → List Share} {edit : Edit (StateM Store) Share}

end Store

/-! ## Values without shares -/

/-- The datum holds no share. -/
abbrev Value.Bare (v : Datum) : Prop := v.Every fun _ => False

namespace Store

variable {s : Store} {address : Address} {value : Datum} {params : Keyed Datum}

end Store

end ResourceGraph
