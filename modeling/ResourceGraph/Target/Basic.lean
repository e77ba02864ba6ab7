import ResourceGraph.Number.Reading
import ResourceGraph.Text.Quoted

/-!
Targets: where in a request's parameters a projected value goes. Five forms are understood, `name`,
`a.b`, `name[]`, `a[i].b` and `a[i].b[]`, with names of word characters and the index in decimal
digits of any script. One line break at the end is ignored.
-/

namespace ResourceGraph

open Text

/-- The place that a target addresses. -/
inductive Address
  /-- A key of the parameters. -/
  | key (name : String)
  /-- A member of the object under a key. -/
  | member (name inner : String)
  /-- The end of the list under a key. -/
  | append (name : String)
  /-- A member of an element of the list under a key. -/
  | elementMember (name : String) (place : Nat) (inner : String)
  /-- The end of the list that is a member of an element of the list under a key. -/
  | elementAppend (name : String) (place : Nat) (inner : String)
  deriving DecidableEq, Repr

namespace Address

/-- The key of the parameters under which the place lies. -/
def name : Address → String
  | key name | member name _ | append name | elementMember name _ _ | elementAppend name _ _ => name

/-- The element of the list under the key, if one is addressed. -/
def place? : Address → Option Nat
  | elementMember _ place _ | elementAppend _ place _ => some place
  | _ => none

/-- The member that is addressed inside. -/
def inner? : Address → Option String
  | member _ inner | elementMember _ _ inner | elementAppend _ _ inner => some inner
  | _ => none

end Address

/-- A target: an address and the expression it was written as. -/
structure Target where
  expression : String
  address : Address
  deriving DecidableEq, Repr

/-- Why an expression is no target. -/
inductive TargetFault
  | unknownForm
  | indexTooLong
  deriving DecidableEq, Repr

namespace Target

/-- The longest name at the start of a text, and the rest. -/
def splitName (cs : List Char) : List Char × List Char := cs.span isWord

/-- The text is one name and nothing else. -/
def isName (cs : List Char) : Bool := !cs.isEmpty && cs.all isWord

/-- A text without one line break at its end. -/
def withoutLineBreak (cs : List Char) : List Char :=
  if cs.getLast? == some '\n' then cs.dropLast else cs

/-- What follows the index of an element: a member, or the end of a list that is a member. -/
def readInner (name place : List Char) (cs : List Char) : Except TargetFault Address :=
  let (inner, rest) := splitName cs
  if inner.isEmpty then .error .unknownForm
  else if !rest.isEmpty && rest != ['[', ']'] then .error .unknownForm
  else if Number.digitLimit < place.length then .error .indexTooLong
  else if rest.isEmpty then
    .ok (.elementMember (String.ofList name) (digitsValue place) (String.ofList inner))
  else .ok (.elementAppend (String.ofList name) (digitsValue place) (String.ofList inner))

/-- The address that a text without line break writes. -/
def readAddress (cs : List Char) : Except TargetFault Address :=
  let (name, rest) := splitName cs
  if name.isEmpty then .error .unknownForm
  else
    match rest with
    | [] => .ok (.key (String.ofList name))
    | ['[', ']'] => .ok (.append (String.ofList name))
    | '.' :: inner =>
      if isName inner then .ok (.member (String.ofList name) (String.ofList inner))
      else .error .unknownForm
    | '[' :: indexed =>
      let (place, after) := indexed.span isDigit
      match after with
      | ']' :: '.' :: inner =>
        if place.isEmpty then .error .unknownForm else readInner name place inner
      | _ => .error .unknownForm
    | _ => .error .unknownForm

/-- The target that an expression writes. -/
def read (expression : String) : Except TargetFault Target :=
  match readAddress (withoutLineBreak expression.toList) with
  | .ok address => .ok ⟨expression, address⟩
  | .error fault => .error fault

end Target

end ResourceGraph
