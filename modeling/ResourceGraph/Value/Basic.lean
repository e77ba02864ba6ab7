import ResourceGraph.Keyed
import ResourceGraph.Number.Basic

/-!
Nested data: what documents, parameters and responses are made of. A value may stand for a container
that is kept elsewhere and shared by all who hold it; `ρ` is the type of such shares. Data that
shares nothing is `Json`, a plain tree.
-/

namespace ResourceGraph

/-- Nested data whose containers may be shares of type `ρ`. -/
inductive Value (ρ : Type) where
  | null
  | bool (b : Bool)
  | int (n : Int)
  | float (x : Float)
  | str (s : String)
  | list (items : List (Value ρ))
  | object (fields : List (String × Value ρ))
  /-- An object that has keys other than texts. Its keys are scalars or shares. -/
  | table (entries : List (Value ρ × Value ρ))
  | shared (share : ρ)
  deriving Inhabited

/-- Nested data that shares nothing. -/
abbrev Json := Value Empty

namespace Value

variable {ρ σ : Type}

mutual

/-- The value with every share replaced by what it stands for. -/
def bind (f : ρ → Value σ) : Value ρ → Value σ
  | .null => .null
  | .bool b => .bool b
  | .int n => .int n
  | .float x => .float x
  | .str s => .str s
  | .list items => .list (bindItems f items)
  | .object fields => .object (bindFields f fields)
  | .table entries => .table (bindEntries f entries)
  | .shared share => f share

/-- Elements with every share replaced. -/
def bindItems (f : ρ → Value σ) : List (Value ρ) → List (Value σ)
  | [] => []
  | item :: rest => bind f item :: bindItems f rest

/-- Members with every share replaced. -/
def bindFields (f : ρ → Value σ) : List (String × Value ρ) → List (String × Value σ)
  | [] => []
  | (key, value) :: rest => (key, bind f value) :: bindFields f rest

/-- Entries with every share replaced. -/
def bindEntries (f : ρ → Value σ) : List (Value ρ × Value ρ) → List (Value σ × Value σ)
  | [] => []
  | (key, value) :: rest => (bind f key, bind f value) :: bindEntries f rest

end

theorem bindItems_eq_map (f : ρ → Value σ) (items : List (Value ρ)) :
    bindItems f items = items.map (bind f) := by
  induction items with
  | nil => rfl
  | cons item rest ih => simp [bindItems, ih]

theorem bindFields_eq_map (f : ρ → Value σ) (fields : List (String × Value ρ)) :
    bindFields f fields = fields.map fun entry => (entry.1, bind f entry.2) := by
  induction fields with
  | nil => rfl
  | cons entry rest ih => simp [bindFields, ih]

theorem bindEntries_eq_map (f : ρ → Value σ) (entries : List (Value ρ × Value ρ)) :
    bindEntries f entries = entries.map fun entry => (bind f entry.1, bind f entry.2) := by
  induction entries with
  | nil => rfl
  | cons entry rest ih => simp [bindEntries, ih]

mutual

/-- The value with every share replaced, if each of them stands for something. -/
def bind? (f : ρ → Option (Value σ)) : Value ρ → Option (Value σ)
  | .null => some .null
  | .bool b => some (.bool b)
  | .int n => some (.int n)
  | .float x => some (.float x)
  | .str s => some (.str s)
  | .list items => (bindItems? f items).map .list
  | .object fields => (bindFields? f fields).map .object
  | .table entries => (bindEntries? f entries).map .table
  | .shared share => f share

/-- Elements with every share replaced. -/
def bindItems? (f : ρ → Option (Value σ)) : List (Value ρ) → Option (List (Value σ))
  | [] => some []
  | item :: rest => do
    let first ← bind? f item
    return first :: (← bindItems? f rest)

/-- Members with every share replaced. -/
def bindFields? (f : ρ → Option (Value σ)) :
    List (String × Value ρ) → Option (List (String × Value σ))
  | [] => some []
  | (key, value) :: rest => do
    let first ← bind? f value
    return (key, first) :: (← bindFields? f rest)

/-- Entries with every share replaced. -/
def bindEntries? (f : ρ → Option (Value σ)) :
    List (Value ρ × Value ρ) → Option (List (Value σ × Value σ))
  | [] => some []
  | (key, value) :: rest => do
    let name ← bind? f key
    let first ← bind? f value
    return (name, first) :: (← bindEntries? f rest)

end

mutual

/-- Equality of trees can be decided. -/
def decEq [DecidableEq ρ] : (a b : Value ρ) → Decidable (a = b)
  | .null, b => by cases b <;> first | exact isTrue rfl | exact isFalse (by simp)
  | .bool x, b => by
    cases b with
    | bool y => exact decidable_of_iff (x = y) (by simp)
    | _ => exact isFalse (by simp)
  | .int x, b => by
    cases b with
    | int y => exact decidable_of_iff (x = y) (by simp)
    | _ => exact isFalse (by simp)
  | .float x, b => by
    cases b with
    | float y => exact decidable_of_iff (x = y) (by simp)
    | _ => exact isFalse (by simp)
  | .str x, b => by
    cases b with
    | str y => exact decidable_of_iff (x = y) (by simp)
    | _ => exact isFalse (by simp)
  | .list xs, b =>
    match b with
    | .list ys => @decidable_of_iff _ _ (by simp) (decEqItems xs ys)
    | .null | .bool _ | .int _ | .float _ | .str _ | .object _ | .table _ | .shared _ =>
      isFalse (by simp)
  | .object xs, b =>
    match b with
    | .object ys => @decidable_of_iff _ _ (by simp) (decEqFields xs ys)
    | .null | .bool _ | .int _ | .float _ | .str _ | .list _ | .table _ | .shared _ =>
      isFalse (by simp)
  | .table xs, b =>
    match b with
    | .table ys => @decidable_of_iff _ _ (by simp) (decEqEntries xs ys)
    | .null | .bool _ | .int _ | .float _ | .str _ | .list _ | .object _ | .shared _ =>
      isFalse (by simp)
  | .shared x, b => by
    cases b with
    | shared y => exact decidable_of_iff (x = y) (by simp)
    | _ => exact isFalse (by simp)

/-- Equality of elements can be decided. -/
def decEqItems [DecidableEq ρ] : (xs ys : List (Value ρ)) → Decidable (xs = ys)
  | [], [] => isTrue rfl
  | [], _ :: _ => isFalse (by simp)
  | _ :: _, [] => isFalse (by simp)
  | x :: xs, y :: ys =>
    match decEq x y, decEqItems xs ys with
    | isTrue h, isTrue t => isTrue (by rw [h, t])
    | isFalse h, _ => isFalse (by simp [h])
    | _, isFalse t => isFalse (by simp [t])

/-- Equality of members can be decided. -/
def decEqFields [DecidableEq ρ] : (xs ys : List (String × Value ρ)) → Decidable (xs = ys)
  | [], [] => isTrue rfl
  | [], _ :: _ => isFalse (by simp)
  | _ :: _, [] => isFalse (by simp)
  | (k, x) :: xs, (l, y) :: ys =>
    match (inferInstance : Decidable (k = l)), decEq x y, decEqFields xs ys with
    | isTrue hk, isTrue h, isTrue t => isTrue (by rw [hk, h, t])
    | isFalse hk, _, _ => isFalse (by simp [hk])
    | _, isFalse h, _ => isFalse (by simp [h])
    | _, _, isFalse t => isFalse (by simp [t])

/-- Equality of entries can be decided. -/
def decEqEntries [DecidableEq ρ] : (xs ys : List (Value ρ × Value ρ)) → Decidable (xs = ys)
  | [], [] => isTrue rfl
  | [], _ :: _ => isFalse (by simp)
  | _ :: _, [] => isFalse (by simp)
  | (k, x) :: xs, (l, y) :: ys =>
    match decEq k l, decEq x y, decEqEntries xs ys with
    | isTrue hk, isTrue h, isTrue t => isTrue (by rw [hk, h, t])
    | isFalse hk, _, _ => isFalse (by simp [hk])
    | _, isFalse h, _ => isFalse (by simp [h])
    | _, _, isFalse t => isFalse (by simp [t])

end

instance [DecidableEq ρ] : DecidableEq (Value ρ) := decEq

/-- A plain tree as a value with shares of any type. -/
def ofJson (tree : Json) : Value ρ := bind Empty.elim tree

/-- The members of an object. -/
def fields? : Value ρ → Option (List (String × Value ρ))
  | .object fields => some fields
  | _ => none

/-- The number that a value is. Truth values are none. -/
def num? : Value ρ → Option Num
  | .int n => some (.int n)
  | .float x => some (.float x)
  | _ => none

/-- Null, false, zero and everything empty. Shares must have been opened. -/
def isEmpty : Value ρ → Bool
  | .null => true
  | .bool b => !b
  | .int n => n == 0
  | .float x => x == 0.0
  | .str s => s.isEmpty
  | .list items => items.isEmpty
  | .object fields => fields.isEmpty
  | .table entries => entries.isEmpty
  | .shared _ => false

end Value

end ResourceGraph
