/-
Roots of projects.

A root is a directory together with the way it is written. An ignore file sees a path from its own directory on, with
one exception: if the root is written with `././` in front, the files at the root and below see every path as it is
written behind that.
-/
import BlockTemplates.Project.Tree

namespace BlockTemplates

/-- the directory of a project -/
structure Root where
  /-- the names that lead to it from the top of the tree -/
  path : Path
  /-- what is written of it behind `././`, if that stands in front -/
  front : Option (List Char)

namespace Root

/-- a root that is written as the names that lead to it -/
def ofPath (path : Path) : Root :=
  ⟨path, none⟩

/-- what is written of a directory behind `././`, with a slash at its end -/
def frontOf (written : List Char) : Option (List Char) :=
  match if written.getLast? = some '/' then written else written ++ ['/'] with
  | '.' :: '/' :: '.' :: '/' :: rest => some rest
  | _ => none

/-- the place that a text leads to from the directory `here` -/
def pathOf? (top : Tree) (here : Path) (written : String) : Option Path :=
  let names := (written.toList.splitOn '/').map String.ofList
  if written.startsWith "/" then top.walkTo? names [] else top.walkTo? names here

/-- the root that a text leads to from the directory `here` -/
def ofText? (top : Tree) (here : Path) (written : String) : Option Root :=
  (pathOf? top here written).map fun path => ⟨path, frontOf written.toList⟩

/-- how many names of a path the ignore files of a directory do not see, and what they see in its place; `depth` names
lead to the directory -/
def view (root : Root) (depth : Nat) : Nat × List Char :=
  match root.front with
  | some front => if root.path.length ≤ depth then (root.path.length, front) else (depth, [])
  | none => (depth, [])

end Root

end BlockTemplates
