/-
Slot paths: the name of a slot and the keys that lead from its value to a nested one, written with points between.

`SlotPath.ofChars?` reads a path and `SlotPath.text` writes it.
-/
import BlockTemplates.Name

namespace BlockTemplates

def isKeyChar (c : Char) : Bool :=
  isAsciiAlphanumeric c || c == '_' || c == '-'

/-- a nonempty run of key characters -/
def isKeyText (cs : List Char) : Bool :=
  !cs.isEmpty && cs.all isKeyChar

theorem isKeyText_iff {cs : List Char} : isKeyText cs = true ↔ cs ≠ [] ∧ ∀ c ∈ cs, isKeyChar c = true := by
  simp [isKeyText]

/-- the slot a tag names, and the keys below it -/
structure SlotPath where
  root : String
  keys : List String
  deriving DecidableEq, Repr

namespace SlotPath

/-- all parts of a path, outermost first -/
def parts (p : SlotPath) : List String :=
  p.root :: p.keys

/-- reads a path; every part must be a key -/
def ofChars? (cs : List Char) : Option SlotPath :=
  match cs.splitOn '.' with
  | [] => none
  | root :: keys =>
    if (root :: keys).all isKeyText then some ⟨String.ofList root, keys.map String.ofList⟩ else none

/-- the parts with points between them -/
def chars (p : SlotPath) : List Char :=
  ['.'].intercalate (p.parts.map String.toList)

def text (p : SlotPath) : String :=
  String.ofList p.chars

/-- whether every part is a key, as in the paths that are read -/
def IsValid (p : SlotPath) : Prop :=
  ∀ part ∈ p.parts, isKeyText part.toList = true

instance (p : SlotPath) : Decidable p.IsValid :=
  inferInstanceAs (Decidable (∀ part ∈ p.parts, isKeyText part.toList = true))

/-- the path that goes on from the end of `p` by `q` -/
def append (p q : SlotPath) : SlotPath :=
  ⟨p.root, p.keys ++ q.parts⟩

end SlotPath

end BlockTemplates
