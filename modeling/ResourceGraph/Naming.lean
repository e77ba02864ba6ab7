import ResourceGraph.Text.Digit
import ResourceGraph.Text.Lower

/-!
Names. A definition document writes names with capitals inside (`CreateUser`); callers see them with
underscores (`create_user`). A plural association names its single members by the singular of its
last word, and a child type drops the name of its parent. Names that go over the wire never pass
through here.
-/

namespace ResourceGraph.Naming

open Text

/-- Puts an underscore before the last capital of every run of capitals that a small letter follows,
so that an acronym ends where the next word begins. The run is read greedily from its first capital. -/
def splitAcronyms : List Char → List Char
  | [] => []
  | c :: rest =>
    if isCapital c then
      let run := c :: rest.takeWhile isCapital
      let after := rest.dropWhile isCapital
      let opened :=
        if 2 ≤ run.length && (after.head?.map isSmall).getD false then
          run.dropLast ++ '_' :: run.getLast?.toList
        else run
      opened ++ splitAcronyms after
    else c :: splitAcronyms rest
termination_by cs => cs.length
decreasing_by
  · have := (List.dropWhile_sublist isCapital (l := rest)).length_le
    simp; omega
  · simp

/-- Puts an underscore between a small letter or digit and the capital after it. -/
def splitWords : List Char → List Char
  | a :: b :: rest =>
    if (isSmall a || isDigit a) && isCapital b then a :: '_' :: splitWords (b :: rest)
    else a :: splitWords (b :: rest)
  | cs => cs

/-- The snake-case form of a name: acronyms are split first, then words; hyphens become underscores
and letters small. -/
def snakeCase (name : String) : String :=
  let split := splitWords (splitAcronyms name.toList)
  String.ofList (lowerFrom [] (split.map fun c => if c == '-' then '_' else c))

/-- Words whose singular follows no rule. -/
def irregular : List (String × String) :=
  [("children", "child"), ("people", "person"), ("data", "data")]

/-- The singular of one word, if a rule gives one. -/
def singularWord? (word : String) : Option String :=
  match irregular.lookup word with
  | some single => some single
  | none =>
    let cs := word.toList
    let ends (suffix : String) : Bool := suffix.toList.isSuffixOf cs
    let without (n : Nat) (suffix : String) : String :=
      String.ofList (cs.take (cs.length - n) ++ suffix.toList)
    if ends "ies" && 3 < cs.length then some (without 3 "y")
    else if ends "sses" || ends "xes" || ends "ches" || ends "shes" then some (without 2 "")
    else if ends "s" && !ends "ss" && 1 < cs.length then some (without 1 "")
    else none

/-- The singular of a snake-case name: its last word is inflected, the words before it stay. A name
that starts with its only underscore loses it. -/
def singular? (name : String) : Option String :=
  let cs := name.toList
  let last := (cs.reverse.takeWhile (· != '_')).reverse
  let head := cs.take (cs.length - last.length - 1)
  let start := if head.isEmpty then "" else String.ofList head ++ "_"
  (singularWord? (String.ofList last)).map (start ++ ·)

/-- A name without a leading parent name, unless nothing would be left. -/
def withoutParent (name parent : String) : String :=
  let cs := name.toList
  let ps := parent.toList
  if ps.isPrefixOf cs && ps.length < cs.length then String.ofList (cs.drop ps.length) else name

end ResourceGraph.Naming
