/-
Tables under construction.

Which keys a document may still add to a table depends on how the table came about: by a header of its own, by a longer
header, by the dots of a key, or as a finished value. `insertKey` adds a value under a dotted key, `openTable` and
`openItem` are the two kinds of header; each refuses to define a thing twice. The dots of a key also go through a table
that a longer header implied; from then on no header may open it.
-/
import BlockTemplates.Toml.Value

namespace BlockTemplates.Toml

/-- how a table came about -/
inductive Origin where
  /-- by a header of its own -/
  | header
  /-- by a longer header -/
  | implied
  /-- by the dots of a key -/
  | dotted
  deriving DecidableEq, Repr

/-- what a key holds while its document is read -/
inductive Node where
  /-- a finished value -/
  | value (v : Value)
  | table (origin : Origin) (entries : List (String × Node))
  /-- the tables of repeated headers; the last one is still open -/
  | tables (earlier : List Value) (last : List (String × Node))
  deriving Inhabited

/-- an open table -/
abbrev Table := Entries Node

mutual

def Node.toValue : Node → Value
  | .value v => v
  | .table _ entries => .table (finished entries)
  | .tables earlier last => .array (earlier ++ [.table (finished last)])

def finished : List (String × Node) → List (String × Value)
  | [] => []
  | (key, node) :: rest => (key, node.toValue) :: finished rest

end

namespace Table

/-- adds a value under a dotted key -/
def insertKey (key : String) (v : Value) : List String → Table → Option Table
  | [], t =>
    match t.get? key with
    | none => some (t.insert key (.value v))
    | some _ => none
  | k :: path, t =>
    match t.get? k with
    | none => (insertKey key v path []).map fun sub => t.insert k (.table .dotted sub)
    | some (.table .header _) => none
    | some (.table _ sub) => (insertKey key v path sub).map fun sub => t.insert k (.table .dotted sub)
    | some (.tables earlier last) =>
      if path.isEmpty then none else (insertKey key v path last).map fun last => t.insert k (.tables earlier last)
    | some (.value _) => none

/-- changes the table that the headers of `path` lead to; the last of repeated tables counts -/
def modifyAt (change : Table → Option Table) : List String → Table → Option Table
  | [], t => change t
  | k :: path, t =>
    match t.get? k with
    | none => (modifyAt change path []).map fun sub => t.insert k (.table .implied sub)
    | some (.table origin sub) => (modifyAt change path sub).map fun sub => t.insert k (.table origin sub)
    | some (.tables earlier last) =>
      (modifyAt change path last).map fun last => t.insert k (.tables earlier last)
    | some (.value _) => none

/-- opens the table of a header whose last key is `key` -/
def openTable (key : String) (t : Table) : Option Table :=
  match t.get? key with
  | none => some (t.insert key (.table .header []))
  | some (.table .implied sub) => some (t.insert key (.table .header sub))
  | _ => none

/-- opens another table of a repeated header whose last key is `key` -/
def openItem (key : String) (t : Table) : Option Table :=
  match t.get? key with
  | none => some (t.insert key (.tables [] []))
  | some (.tables earlier last) => some (t.insert key (.tables (earlier ++ [.table (finished last)]) []))
  | _ => none

end Table

end BlockTemplates.Toml
