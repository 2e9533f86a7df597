/-
Slots: the named values of a render.

Names are in ascending order, and so are the keys of all maps in the values: slots are equal if they hold the same,
however they were built. `extend` lays one collection over another, `notFinite?` names the first slot that holds NaN or
an infinity.
-/
import BlockTemplates.Json.Text
import BlockTemplates.Path
import BlockTemplates.Value.Ordered

namespace BlockTemplates

/-- named values with all their maps in order -/
structure Slots where
  entries : Entries Value
  ordered : (Value.map entries).isOrdered = true

namespace Slots

def empty : Slots :=
  ⟨[], rfl⟩

def get? (slots : Slots) (name : String) : Option Value :=
  slots.entries.get? name

/-- sets the value of a slot, with its maps in order -/
def insert (slots : Slots) (name : String) (value : Value) : Slots :=
  ⟨slots.entries.insert name value.sorted, Value.isOrdered_insert slots.ordered (Value.isOrdered_sorted value) name⟩

/-- every slot of `upper`, and those of `lower` that it does not name -/
def extend (lower upper : Slots) : Slots :=
  ⟨lower.entries.extend upper.entries,
    Value.isOrdered_extend lower.ordered (Value.isOrdered_map_iff.1 upper.ordered).2⟩

/-- the slots of pairs; the last pair of a name counts -/
def ofPairs (pairs : List (String × Value)) : Slots :=
  pairs.foldl (fun slots (name, value) => slots.insert name value) empty

def toValue (slots : Slots) : Value :=
  .map slots.entries

def resolve (slots : Slots) (path : SlotPath) : Option Value :=
  slots.toValue.lookup path.parts

/-- the slots a template gets that is invoked with `scope`: all of them, or the map at the scope, or none -/
def within (slots : Slots) : Option SlotPath → Slots
  | none => slots
  | some path =>
    match h : slots.resolve path with
    | some (.map entries) => ⟨entries, Value.isOrdered_of_lookup slots.ordered h⟩
    | _ => empty

/-- the first slot with a number that is not finite -/
def notFinite? (slots : Slots) : Option String :=
  (slots.entries.find? fun (_, value) => !value.isFinite).map (·.1)

def json (slots : Slots) : String :=
  slots.toValue.json

/-- equality of slots, with numbers compared as numbers -/
def same (a b : Slots) : Bool :=
  a.toValue.same b.toValue

@[simp] theorem get?_insert (slots : Slots) (name other : String) (value : Value) :
    (slots.insert name value).get? other = if name = other then some value.sorted else slots.get? other :=
  Entries.get?_insert name other value.sorted slots.entries

@[simp] theorem get?_extend (lower upper : Slots) (name : String) :
    (lower.extend upper).get? name = (upper.get? name).or (lower.get? name) :=
  Entries.get?_extend name lower.entries upper.entries

end Slots

end BlockTemplates
