/-
Fingerprints: the keys of the render cache.

The fingerprint of a name and slots is the canonical JSON of the list of the two. Slots with a number that is not finite
have none.
-/
import BlockTemplates.Error
import BlockTemplates.Slots

namespace BlockTemplates

/-- the key of a render -/
structure Fingerprint where
  text : String
  deriving DecidableEq, Repr

/-- fails on the first slot with a number that is not finite -/
def Slots.checkFinite (slots : Slots) : Except Error Unit :=
  match slots.notFinite? with
  | some name => .error (.invalidSlots (.notFinite name))
  | none => .ok ()

/-- the canonical text of a name and slots -/
def Fingerprint.textOf (name : String) (slots : Slots) : List Char :=
  Json.value (.list [.string name, slots.toValue])

def Fingerprint.of (name : String) (slots : Slots) : Except Error Fingerprint := do
  slots.checkFinite
  pure ⟨String.ofList (textOf name slots)⟩

end BlockTemplates
