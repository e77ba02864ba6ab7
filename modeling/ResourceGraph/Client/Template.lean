import ResourceGraph.Keyed
import ResourceGraph.Text.Word

/-!
Path templates: the path of a route, in which a name in braces stands for a parameter. A template is
filled in one pass from left to right: what a parameter is replaced by is not looked at again, and a
parameter that was used is taken away from those that are left.
-/

namespace ResourceGraph

open Text

/-- A piece of a template: a character of its own text, or a hole for a parameter. -/
inductive Piece
  | text (c : Char)
  | hole (name : String)
  deriving DecidableEq, Repr

/-- Why a template is not filled: no parameter is left for a hole, or there is no text for the one
that is. -/
inductive Template.Fault
  | missing (name : String)
  | unwritten (name : String)
  deriving DecidableEq, Repr

namespace Template

/-- The name of a hole that follows an opening brace, and what comes after it. -/
def holeName? (cs : List Char) : Option (String × List Char) :=
  match cs.dropWhile isWord with
  | '\x7d' :: after =>
    let name := cs.takeWhile isWord
    if name.isEmpty then none else some (String.ofList name, after)
  | _ => none

theorem length_of_holeName? {cs : List Char} {name : String} {after : List Char}
    (h : holeName? cs = some (name, after)) : after.length < cs.length := by
  have shorter := (List.dropWhile_suffix isWord (l := cs)).length_le
  unfold holeName? at h
  split at h
  · next rest found =>
    rw [found] at shorter
    dsimp only at h
    split at h
    · simp at h
    · simp only [Option.some.injEq, Prod.mk.injEq] at h
      rw [← h.2]
      exact shorter
  · simp at h

/-- The pieces of a template. A brace that opens no hole is text. -/
def pieces (cs : List Char) : List Piece :=
  match cs with
  | [] => []
  | c :: rest =>
    if c = '\x7b' then
      match h : holeName? rest with
      | some (name, after) =>
        have : after.length < rest.length := length_of_holeName? h
        .hole name :: pieces after
      | none => .text c :: pieces rest
    else .text c :: pieces rest
termination_by cs.length

/-- Fills the holes, and gives what is left of the parameters, or says what is wrong with the first
hole that cannot be filled. -/
def fill {α : Type} (text : α → Option String) :
    List Piece → Keyed α → Except Fault (List Char × Keyed α)
  | [], params => .ok ([], params)
  | .text c :: rest, params =>
    match fill text rest params with
    | .ok (cs, left) => .ok (c :: cs, left)
    | .error fault => .error fault
  | .hole name :: rest, params =>
    match Keyed.get? params name with
    | none => .error (.missing name)
    | some value =>
      match text value with
      | none => .error (.unwritten name)
      | some shown =>
        match fill text rest (Keyed.erase params name) with
        | .ok (cs, left) => .ok (shown.toList ++ cs, left)
        | .error fault => .error fault

end Template

end ResourceGraph
