/-
Relative paths: the names that lead to a file, outermost first.

Paths are ordered name by name, and names by code points.
-/
namespace BlockTemplates

/-- names that lead from a directory to a file or a directory -/
abbrev Path := List String

namespace Path

/-- the names with slashes between them -/
def text (path : Path) : String :=
  String.intercalate "/" path

def bytes (path : Path) : List UInt8 :=
  path.text.toList.flatMap String.utf8EncodeChar

/-- whether a path is before another or equal to it -/
def le : Path → Path → Bool
  | [], _ => true
  | _ :: _, [] => false
  | a :: as, b :: bs => decide (a < b) || (a == b && le as bs)

end Path

end BlockTemplates
