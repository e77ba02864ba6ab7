import ResourceGraph.Value.Members

/-!
Values read as the entries of an object: an object has its members; a list has one entry for each
element that is a pair, a pair being a list of two, a text of two characters, or an object of two
members, which stand for their keys. Nothing else has entries, save the empty text, which has none.
-/

namespace ResourceGraph.Value

variable {ρ : Type}

/-- Why a value has no entries. -/
inductive EntriesFault
  | notASequence
  | notAPair
  deriving DecidableEq, Repr

/-- Containers cannot be keys. -/
def isContainer : Value ρ → Bool
  | .list _ | .object _ | .table _ => true
  | _ => false

/-- The entry that one element of a list stands for. -/
def entry (opened : Value ρ → Value ρ) (element : Value ρ) :
    Except EntriesFault (Value ρ × Value ρ) :=
  match opened element with
  | .list [key, value] =>
    if isContainer (opened key) then .error .notASequence else .ok (key, value)
  | .object [(key, _), (value, _)] => .ok (.str key, .str value)
  | .table [(key, _), (value, _)] => .ok (key, value)
  | .list _ | .object _ | .table _ => .error .notAPair
  | .str s =>
    match s.toList with
    | [key, value] => .ok (.str key.toString, .str value.toString)
    | _ => .error .notAPair
  | _ => .error .notASequence

/-- The entries of a value, in order. -/
def entries (opened : Value ρ → Value ρ) (value : Value ρ) :
    Except EntriesFault (List (Value ρ × Value ρ)) :=
  match opened value with
  | .list elements => elements.mapM (entry opened)
  | .str s => if s.isEmpty then .ok [] else .error .notAPair
  | other =>
    match other.entries? with
    | some found => .ok found
    | none => .error .notASequence

end ResourceGraph.Value
