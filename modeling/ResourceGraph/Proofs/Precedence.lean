import ResourceGraph.Proofs.CallerParams
import ResourceGraph.Proofs.Repetition
import ResourceGraph.Proofs.SharedTrees
import ResourceGraph.Proofs.WritingApart

/-!
Who decides what is sent. Building the parameters of a request for two callers goes side by side: as
long as the projections under other keys write into no container of the store, both leave the same
graph, and the same value under every key that a projection sets. What no projection writes under is
sent as the caller gives it. A projected value that lies in the parameters twice can be written into
under one key and seen under the other, and then the caller's parameters decide whether it is.
-/

namespace ResourceGraph

open ResourceGraph.Graph ResourceGraph.Store

/-! ## Two runs side by side -/

/-- Wherever a projection writes under a key that no projection has set before, its write passes
through no container of the store, such as one that another projection has put into the parameters. -/
def Projection.Apart (read : ResourceId → Act Datum) (caller : Option ResourceId) :
    (String → Prop) → List Projection → Keyed Datum → Graph → Prop
  | _, [], _, _ => True
  | set, p :: rest, params, g =>
    (¬ set p.target.address.name → ∀ value h, runIn (Act.project read caller p) g = (.ok value, h) →
      h.store.passed params p.target.address = []) ∧
    ∀ next h, runIn (Act.apply read caller params p) g = (.ok next, h) →
      Apart read caller (fun key => set key ∨ p.target.address = .key key) rest next h

namespace Request

end Request

namespace Act

variable {read : ResourceId → Act Datum} {caller : Option ResourceId} {g h : Graph} {p : Projection}
  {params others next next' : Keyed Datum} {set : String → Prop}

/-- Two sets of parameters have the same under every key that is set. -/
def Agree (set : String → Prop) (params others : Keyed Datum) : Prop :=
  ∀ key, set key → ∃ v, Keyed.get? params key = some v ∧ Keyed.get? others key = some v

end Act

/-! ## Requests that write apart for every caller -/

namespace Projection

/-- The value of the projection is written in the projection itself. -/
def Literal (p : Projection) : Prop := p.source.kind ≠ .identifier ∧ p.source.kind ≠ .dataMember

/-- Identifiers and data of the resource are written only under keys that a projection sets, this
one or one before. -/
def Orderly : (String → Prop) → List Projection → Prop
  | _, [] => True
  | set, p :: rest =>
    (set p.target.address.name ∨ p.target.address = .key p.target.address.name ∨ p.Literal) ∧
      Orderly (fun key => set key ∨ p.target.address = .key key) rest

end Projection

namespace Act

variable {read : ResourceId → Act Datum} {caller : Option ResourceId} {g h : Graph} {p : Projection}
  {params next : Keyed Datum} {set : String → Prop}

end Act

namespace Act

variable {read : ResourceId → Act Datum} {g h : Graph} {request : Request} {context : Context}
    {sent : Datum}

end Act

namespace Graph

variable {g h : Graph} {id : ResourceId} {request : Request} {given : Json} {sent : Datum}

/-- A request that sends the name and the data of a user, and a list to which it appends. -/
def storing : Request :=
  ⟨"Put", [⟨⟨"Id", .key "Id"⟩, .identifier (.str "id")⟩,
    ⟨⟨"Profile", .key "Profile"⟩, .dataMember (.str "$")⟩,
    ⟨⟨"Tags[]", .append "Tags"⟩, .text "z"⟩]⟩

end Graph

end ResourceGraph
