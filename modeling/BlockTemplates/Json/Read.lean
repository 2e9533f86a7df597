/-
Slots from JSON.

The text is one object. Containers nest at most 127 deep, the object included; of equal keys the last counts; and a null
anywhere in a slot's value spoils the slot, which is noticed once its value has been read. `Slots.ofJson` reports the
first fault with its place.

Values are read by recursion on a fuel that starts above twice the length of the text, since every second call takes a
character.
-/
import BlockTemplates.Json.Number
import BlockTemplates.Json.Quotation
import BlockTemplates.Slots

namespace BlockTemplates

namespace Json

/-- the blanks between tokens -/
def isSpace (c : Char) : Bool :=
  c == ' ' || c == '\n' || c == '\t' || c == '\r'

/-- a text without the blanks it starts with -/
def skip (cs : List Char) : List Char :=
  cs.dropWhile isSpace

/-- reads the rest of a word -/
def word : List Char → List Char → Except Fault (List Char)
  | [], cs => .ok cs
  | _ :: _, [] => .error (.before .eofInValue [])
  | w :: ws, c :: cs => if c = w then word ws cs else .error (.inside .expectedIdent (c :: cs))

def colon (cs : List Char) : Except Fault (List Char) :=
  match skip cs with
  | ':' :: rest => .ok rest
  | [] => .error (.before .eofInObject [])
  | rest => .error (.inside .expectedColon rest)

/-- what a closed list or object says about its items: all are there, or one held a null -/
def consItem {α : Type} (item : Option α) (items : Option (List α)) : Option (List α) :=
  match item, items with
  | some x, some xs => some (x :: xs)
  | _, _ => none

mutual

/-- a value that may nest `levels` containers; none if it holds a null -/
def readValue : Nat → Nat → List Char → Except Fault (Option Value × List Char)
  | 0, _, cs => .error (.before .recursionLimit cs)
  | fuel + 1, levels, cs =>
    match skip cs with
    | [] => .error (.before .eofInValue [])
    | 'n' :: rest => do
      let rest ← word "ull".toList rest
      .ok (none, rest)
    | 't' :: rest => do
      let rest ← word "rue".toList rest
      .ok (some (.bool true), rest)
    | 'f' :: rest => do
      let rest ← word "alse".toList rest
      .ok (some (.bool false), rest)
    | '"' :: rest => do
      let (s, rest) ← Quotation.read rest
      .ok (some (.string (String.ofList s)), rest)
    | '-' :: rest => do
      let (numeral, rest) ← Numeral.read true rest
      .ok (some (.number numeral.toNumber), rest)
    | '[' :: rest =>
      match levels with
      | 0 => .error (.before .recursionLimit rest)
      | levels + 1 =>
        match skip rest with
        | ']' :: rest => .ok (some (.list []), rest)
        | [] => .error (.before .eofInList [])
        | rest => do
          let (items, rest) ← readItems fuel levels rest
          .ok (items.map .list, rest)
    | '\x7b' :: rest =>
      match levels with
      | 0 => .error (.before .recursionLimit rest)
      | levels + 1 =>
        match skip rest with
        | '\x7d' :: rest => .ok (some (.map []), rest)
        | [] => .error (.before .eofInObject [])
        | '"' :: rest => do
          let (pairs, rest) ← readMembers fuel levels rest
          .ok (pairs.map fun pairs => .map (Entries.ofPairs pairs), rest)
        | rest => .error (.inside .keyNotString rest)
    | c :: rest =>
      if c.isDigit then do
        let (numeral, rest) ← Numeral.read false (c :: rest)
        .ok (some (.number numeral.toNumber), rest)
      else .error (.inside .expectedValue (c :: rest))

/-- the items of a list, from the first one up to the closing bracket -/
def readItems : Nat → Nat → List Char → Except Fault (Option (List Value) × List Char)
  | 0, _, cs => .error (.before .recursionLimit cs)
  | fuel + 1, levels, cs => do
    let (item, rest) ← readValue fuel levels cs
    match skip rest with
    | ']' :: rest => .ok (consItem item (some []), rest)
    | [] => .error (.before .eofInList [])
    | ',' :: rest =>
      match skip rest with
      | ']' :: rest => .error (.before .trailingComma rest)
      | [] => .error (.before .eofInValue [])
      | rest => do
        let (items, rest) ← readItems fuel levels rest
        .ok (consItem item items, rest)
    | rest => .error (.inside .expectedListComma rest)

/-- the members of an object, from behind the quote of the first key up to the closing brace -/
def readMembers : Nat → Nat → List Char → Except Fault (Option (List (String × Value)) × List Char)
  | 0, _, cs => .error (.before .recursionLimit cs)
  | fuel + 1, levels, cs => do
    let (key, rest) ← Quotation.read cs
    let rest ← colon rest
    let (value, rest) ← readValue fuel levels rest
    let member := value.map fun v => (String.ofList key, v)
    match skip rest with
    | '\x7d' :: rest => .ok (consItem member (some []), rest)
    | [] => .error (.before .eofInObject [])
    | ',' :: rest =>
      match skip rest with
      | '"' :: rest => do
        let (members, rest) ← readMembers fuel levels rest
        .ok (consItem member members, rest)
      | '\x7d' :: rest => .error (.before .trailingComma rest)
      | [] => .error (.before .eofInValue [])
      | rest => .error (.inside .keyNotString rest)
    | rest => .error (.inside .expectedObjectComma rest)

end

def fuelFor (cs : List Char) : Nat :=
  2 * cs.length + 2

/-- how many containers may nest in the document -/
def maxLevels : Nat :=
  127

/-- the place of a slot that holds a null: behind the blanks that follow it, and behind a closing brace -/
def behindSlot (rest : List Char) : List Char :=
  match skip rest with
  | '\x7d' :: rest => rest
  | rest => rest

/-- the slots of the document, from behind the quote of the first name up to the closing brace -/
def readSlots : Nat → Slots → List Char → Except Fault (Slots × List Char)
  | 0, _, cs => .error (.before .recursionLimit cs)
  | fuel + 1, slots, cs => do
    let (name, rest) ← Quotation.read cs
    let rest ← colon rest
    match ← readValue (fuelFor rest) (maxLevels - 1) rest with
    | (none, rest) => .error (.before .noVariant (behindSlot rest))
    | (some value, rest) =>
      let slots := slots.insert (String.ofList name) value
      match skip rest with
      | '\x7d' :: rest => .ok (slots, rest)
      | [] => .error (.before .eofInObject [])
      | ',' :: rest =>
        match skip rest with
        | '"' :: rest => readSlots fuel slots rest
        | '\x7d' :: rest => .error (.before .trailingComma rest)
        | [] => .error (.before .eofInValue [])
        | rest => .error (.inside .keyNotString rest)
      | rest => .error (.inside .expectedObjectComma rest)

/-- the fault of a document that is no object -/
def notMapFault (cs : List Char) : Fault :=
  let read : Except Fault (Found × List Char) :=
    match cs with
    | [] => .error (.before .eofInValue [])
    | 'n' :: rest => (word "ull".toList rest).map fun rest => (.null, rest)
    | 't' :: rest => (word "rue".toList rest).map fun rest => (.bool true, rest)
    | 'f' :: rest => (word "alse".toList rest).map fun rest => (.bool false, rest)
    | '"' :: rest => (Quotation.read rest).map fun (s, rest) => (.string (String.ofList s), rest)
    | '-' :: rest => (Numeral.read true rest).map fun (numeral, rest) => (numeral.found, rest)
    | '[' :: rest => .ok (.sequence, '[' :: rest)
    | c :: rest =>
      if c.isDigit then (Numeral.read false (c :: rest)).map fun (numeral, rest) => (numeral.found, rest)
      else .error (.inside .expectedValue (c :: rest))
  match read with
  | .ok (found, rest) => .before (.notMap found) rest
  | .error fault => fault

def readDocument (cs : List Char) : Except Fault Slots :=
  match skip cs with
  | '\x7b' :: rest => do
    let (slots, rest) ←
      match skip rest with
      | '\x7d' :: rest => .ok (Slots.empty, rest)
      | [] => .error (.before .eofInObject [])
      | '"' :: rest => readSlots (rest.length + 1) Slots.empty rest
      | rest => .error (.inside .keyNotString rest)
    match skip rest with
    | [] => .ok slots
    | rest => .error (.inside .trailingCharacters rest)
  | rest => .error (notMapFault rest)

end Json

def Slots.ofJson (text : String) : Except Json.ReadError Slots :=
  (Json.readDocument text.toList).mapError (Json.Fault.locate text.toList)

end BlockTemplates
