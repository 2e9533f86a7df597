/-
Slots given on the command line.

A pair is split at its first equals sign; the name in front is trimmed, the value behind it is taken as it is.
`Slots.layered` lays the slots of a JSON text over default slots, and the pairs over both.
-/
import BlockTemplates.Error
import BlockTemplates.Json.Read
import BlockTemplates.Text.Blank
import BlockTemplates.Text.Cut

namespace BlockTemplates

namespace SlotPair

/-- the name and the value of a pair -/
def ofString (raw : String) : Except Error (String × String) :=
  match Text.cut? ['='] raw.toList with
  | none => .error (.invalidSlots (.noSeparator raw))
  | some (before, after) =>
    let name := Text.trim before
    if name.isEmpty then .error (.invalidSlots (.noName raw)) else .ok (String.ofList name, String.ofList after)

def setAll : List String → Slots → Except Error Slots
  | [], slots => .ok slots
  | raw :: rest, slots => do
    let (name, value) ← ofString raw
    setAll rest (slots.insert name (.string value))

end SlotPair

namespace Slots

/-- slots from JSON, with the reader's fault as an error -/
def read (text : String) : Except Error Slots :=
  (ofJson text).mapError fun e => .invalidSlots (.json e)

/-- default slots, over them those of a JSON text, over both those of pairs -/
def layered (defaults : Slots) (json : Option String) (pairs : List String) : Except Error Slots := do
  let slots ←
    match json with
    | none => pure defaults
    | some text => (read text).map defaults.extend
  SlotPair.setAll pairs slots

end Slots

end BlockTemplates
