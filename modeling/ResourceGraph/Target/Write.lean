import ResourceGraph.Target.Basic
import ResourceGraph.Value.Members

/-!
Writing a value to the address of a target. What is missing on the way is created; what is there in
a shape that the address does not fit stops the write, and the work done up to there stays.
Parameters may hold shares: a write passes through them into the container that is shared, so it is
stated once for any way of reaching inside a value, and for plain trees reaching inside is doing
nothing.
-/

namespace ResourceGraph

/-- Why a write stops. -/
inductive WriteFault
  /-- A member is stored in something that is no object. -/
  | noMembers
  /-- An element is addressed in something that has no size. -/
  | noElements
  /-- A value is added to something that is no list. -/
  | noEnd
  /-- A member is looked up, to be created if missing, in something that is no object. -/
  | noLookup
  /-- An object is asked for the element at a place. -/
  | noSuchElement
  deriving DecidableEq, Repr

/-- What an edit leaves, and why it stopped if it did. -/
structure Edited (α : Type) where
  after : α
  fault : Option WriteFault := none

namespace Edited

variable {α β : Type}

/-- The same outcome seen from around the edited part. -/
def map (f : α → β) (e : Edited α) : Edited β := ⟨f e.after, e.fault⟩

end Edited

variable {ρ : Type} {m : Type → Type} [Monad m]

/-- A step that changes a value. -/
abbrev Edit (m : Type → Type) (ρ : Type) := Value ρ → m (Edited (Value ρ))

namespace Edit

/-- Nothing is changed and the edit stops. -/
def stop (v : Value ρ) (fault : WriteFault) : m (Edited (Value ρ)) := pure ⟨v, some fault⟩

/-- Stores a member in an object. -/
def putMember (reach : Edit m ρ → Edit m ρ) (key : String) (value : Value ρ) : Edit m ρ :=
  reach fun
    | .object fields => pure ⟨.object (Keyed.put fields key value), none⟩
    | .table entries => pure ⟨(Value.table entries).withMember key value, none⟩
    | v => stop v .noMembers

/-- Adds an element at the end of a list. -/
def addElement (reach : Edit m ρ → Edit m ρ) (value : Value ρ) : Edit m ρ :=
  reach fun
    | .list items => pure ⟨.list (items ++ [value]), none⟩
    | v => stop v .noEnd

/-- Edits what is under a key, starting from `fresh` where nothing is. -/
def underKey (key : String) (fresh : Value ρ) (edit : Edit m ρ) (fields : List (String × Value ρ)) :
    m (Edited (List (String × Value ρ))) := do
  let edited ← edit ((Keyed.get? fields key).getD fresh)
  return edited.map fun v => Keyed.put fields key v

/-- Edits a member of an object, starting from an empty list where it is missing. -/
def listMember (reach : Edit m ρ → Edit m ρ) (key : String) (edit : Edit m ρ) : Edit m ρ :=
  reach fun
    | .object fields => do
      let edited ← underKey key (.list []) edit fields
      return edited.map .object
    | .table entries => do
      let all := Value.table entries
      let edited ← edit ((all.member? key).getD (.list []))
      return edited.map fun v => all.withMember key v
    | v => stop v .noLookup

/-- A list extended with empty objects until it has an element at a place. -/
def extended (place : Nat) (items : List (Value ρ)) : List (Value ρ) :=
  items ++ List.replicate (place + 1 - items.length) (.object [])

/-- What an element is edited as: an empty object where it is null. -/
def startingFrom : Value ρ → Value ρ
  | .null => .object []
  | v => v

/-- Stores an entry under the key that equals a number. -/
def putAt (place : Nat) (value : Value ρ) (entries : List (Value ρ × Value ρ)) :
    List (Value ρ × Value ρ) :=
  entries.map fun entry =>
    if Value.sameScalar entry.1 (.int place) then (entry.1, value) else entry

/-- Edits the element at a place, extending the list up to it. An object is asked for the number of
the place as a key. A character of a text can be looked at but not changed. -/
def atPlace (reach : Edit m ρ → Edit m ρ) (place : Nat) (edit : Edit m ρ) : Edit m ρ :=
  reach fun
    | .list items => do
      let long := extended place items
      let edited ← edit (startingFrom (long.getD place .null))
      return edited.map fun v => .list (long.set place v)
    | .object fields =>
      stop (.object fields) (if fields.length ≤ place then .noEnd else .noSuchElement)
    | .table entries =>
      if entries.length ≤ place then stop (.table entries) .noEnd
      else
        match entries.find? fun entry => Value.sameScalar entry.1 (.int place) with
        | none => stop (.table entries) .noSuchElement
        | some (_, found) => do
          let edited ← edit (startingFrom found)
          return edited.map fun v => .table (putAt place v entries)
    | .str s =>
      match s.toList[place]? with
      | none => stop (.str s) .noEnd
      | some c => do
        let edited ← edit (.str c.toString)
        return edited.map fun _ => .str s
    | v => stop v .noElements

end Edit

namespace Target

open Edit

/-- Writes a value to an address of the parameters, reaching inside values as given. -/
def writeWith (reach : Edit m ρ → Edit m ρ) (address : Address) (value : Value ρ)
    (params : List (String × Value ρ)) : m (Edited (List (String × Value ρ))) :=
  match address with
  | .key name => pure ⟨Keyed.put params name value, none⟩
  | .member name inner => underKey name (.object []) (putMember reach inner value) params
  | .append name => underKey name (.list []) (addElement reach value) params
  | .elementMember name place inner =>
    underKey name (.list []) (atPlace reach place (putMember reach inner value)) params
  | .elementAppend name place inner =>
    underKey name (.list [])
      (atPlace reach place (listMember reach inner (addElement reach value))) params

/-- Writes a value into parameters that are a plain tree. -/
def write (target : Target) (value : Json) (params : List (String × Json)) :
    Edited (List (String × Json)) :=
  Id.run (writeWith id target.address value params)

end Target

end ResourceGraph
