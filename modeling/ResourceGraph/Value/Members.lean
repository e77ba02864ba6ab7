import ResourceGraph.Value.Same

/-!
Values as maps. Both forms of object are looked at through these functions: the one whose keys are
all texts, and the one with other keys among them. Storing under a key that is there already keeps
its place.
-/

namespace ResourceGraph.Value

variable {ρ : Type}

/-- The key is a text. -/
def isText (s : String) : Value ρ → Bool
  | .str t => s == t
  | _ => false

/-- The member under a text. -/
def member? (v : Value ρ) (key : String) : Option (Value ρ) :=
  match v with
  | .object fields => Keyed.get? fields key
  | .table entries => (entries.find? fun entry => isText key entry.1).map Prod.snd
  | _ => none

/-- The object with a member stored under a text. -/
def withMember (v : Value ρ) (key : String) (value : Value ρ) : Value ρ :=
  match v with
  | .object fields => .object (Keyed.put fields key value)
  | .table entries =>
    if entries.any fun entry => isText key entry.1 then
      .table (entries.map fun entry => if isText key entry.1 then (entry.1, value) else entry)
    else .table (entries ++ [(.str key, value)])
  | other => other

/-- Entries with another stored among them. -/
def putEntry [BEq ρ] (entries : List (Value ρ × Value ρ)) (key value : Value ρ) :
    List (Value ρ × Value ρ) :=
  match entries with
  | [] => [(key, value)]
  | (k, v) :: rest =>
    if sameKey k key then (k, value) :: rest else (k, v) :: putEntry rest key value

/-- The members, if every key is a text. -/
def textFields? : List (Value ρ × Value ρ) → Option (List (String × Value ρ))
  | [] => some []
  | (.str key, value) :: rest => (textFields? rest).map ((key, value) :: ·)
  | _ => none

/-- The object that storing entries one after another makes. -/
def ofEntries [BEq ρ] (entries : List (Value ρ × Value ρ)) : Value ρ :=
  let stored := entries.foldl (fun done entry => putEntry done entry.1 entry.2) []
  match textFields? stored with
  | some fields => .object fields
  | none => .table stored

/-- The entries of an object of either form; nothing else has any. -/
def entries? : Value ρ → Option (List (Value ρ × Value ρ))
  | .object fields => some (fields.map fun entry => (.str entry.1, entry.2))
  | .table entries => some entries
  | _ => none

@[simp] theorem member?_object (fields : List (String × Value ρ)) (key : String) :
    member? (.object fields) key = Keyed.get? fields key := rfl

@[simp] theorem withMember_object (fields : List (String × Value ρ)) (key : String)
    (value : Value ρ) : withMember (.object fields) key value = .object (Keyed.put fields key value) :=
  rfl

end ResourceGraph.Value
