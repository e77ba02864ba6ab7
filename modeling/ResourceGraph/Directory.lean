import ResourceGraph.Keyed

/-!
The directory that definition files lie in, and where paths lead that start there. A path may go up
and come back by the directory's own name; whatever else lies above it is not known here and counts
as absent.
-/

namespace ResourceGraph

/-- A directory of files: the name it is shown under, its own name in the directory above, and its
files by name, if it is there at all. -/
structure Directory where
  shown : String
  name : String
  texts : Option (Keyed String)
  deriving DecidableEq

namespace Directory

/-- What a path leads to. -/
inductive Found
  | text (content : String)
  | absent
  /-- A part of the path, or all of it, is longer than names can be. -/
  | nameTooLong
  deriving DecidableEq

/-- The most bytes that the name of a file has. -/
def longestName : Nat := 255

/-- The most bytes that a path has from the directory on. -/
def longestPath : Nat := 4070

/-- The parts of a path; empty ones and single dots lead nowhere else and are left out. -/
def parts (path : String) : List String :=
  (path.splitOn "/").filter fun part => part != "" && part != "."

/-- The path as it is shown. -/
def shownPath (d : Directory) (path : String) : String :=
  "/".intercalate (d.shown :: parts path)

/-- What the rest of a path leads to from so many levels above the directory. -/
def findFrom (d : Directory) (files : Keyed String) : Nat → List String → Found
  | _, [] => .absent
  | above, ".." :: rest => findFrom d files (above + 1) rest
  | above, part :: rest =>
    if longestName < part.utf8ByteSize then .nameTooLong
    else
      match above, rest with
      | 0, [] => ((Keyed.get? files part).map .text).getD .absent
      | 1, _ => if part == d.name then findFrom d files 0 rest else .absent
      | _, _ => .absent

/-- What a path leads to. -/
def find (d : Directory) (path : String) : Found :=
  if path.toList.contains (Char.ofNat 0) then .absent
  else if longestPath < path.utf8ByteSize then .nameTooLong
  else
    match d.texts with
    | none => .absent
    | some files => if path.startsWith "/" then .absent else d.findFrom files 0 (parts path)

/-- The directory with a file written. -/
def writeFile (d : Directory) (file text : String) : Directory :=
  { d with texts := some (Keyed.put (d.texts.getD []) file text) }

end Directory

end ResourceGraph
