/-
File trees.

A tree is a file with its bytes, or a directory with its entries in the order of their names. `Tree.find?` follows a
relative path, `Tree.put` and `Tree.putDirectory` make an entry and the directories above it, and `Tree.walkTo?`
resolves the names of a path that may hold points.
-/
import BlockTemplates.Project.Path
import BlockTemplates.Value.Entries

namespace BlockTemplates

/-- what a name in a file system stands for -/
inductive Tree where
  | file (content : ByteArray)
  | directory (entries : List (String × Tree))
  deriving Inhabited

namespace Tree

def empty : Tree :=
  directory []

def child? (name : String) : Tree → Option Tree
  | file _ => none
  | directory entries => Entries.get? name entries

def find? : Path → Tree → Option Tree
  | [], t => some t
  | name :: path, t => (t.child? name).bind (find? path)

def isFile : Tree → Bool
  | file _ => true
  | directory _ => false

def content? : Tree → Option ByteArray
  | file content => some content
  | directory _ => none

/-- puts a tree at a path; what stands in its way is replaced -/
def put (t : Tree) : Path → Tree → Tree
  | [], _ => t
  | name :: path, directory entries =>
    directory (Entries.insert name (put t path ((Entries.get? name entries).getD empty)) entries)
  | name :: path, file _ => directory [(name, put t path empty)]

/-- makes a directory at a path, unless there is something already -/
def putDirectory (path : Path) (t : Tree) : Tree :=
  match t.find? path with
  | some _ => t
  | none => put empty path t

/-- the path a text leads to from a directory, with points resolved; none if a name on the way is no directory -/
def walkTo? (top : Tree) : List String → Path → Option Path
  | [], here => some here
  | name :: rest, here =>
    match top.find? here with
    | some (directory _) =>
      if name = "" ∨ name = "." then walkTo? top rest here
      else if name = ".." then (if here.isEmpty then none else walkTo? top rest here.dropLast)
      else walkTo? top rest (here ++ [name])
    | _ => none

end Tree

end BlockTemplates
