/-
Configurations: where templates come from, what happens to repeated names, and default slots.

`Config.ofToml` reads the settings in the order of their names and reports the first that is wrong. Slots take the
values of TOML: integers become numbers, dates become strings, and a number that is not finite is refused. Below a slot,
a table whose first key is the date key stands for the date in its text, whatever else it holds.
-/
import BlockTemplates.Library
import BlockTemplates.Toml.Document

namespace BlockTemplates

namespace Toml

/-- the name under which a date is found where a table is asked for, and that makes a table a date below a slot -/
def dateKey : String :=
  "$__toml_private_datetime"

/-- whether a sign and `bits` bits hold an integer -/
def fitsSigned (bits : Nat) (i : Int) : Bool :=
  decide (-(Nat.pow 2 bits : Int) ≤ i ∧ i < (Nat.pow 2 bits : Int))

def fitsUnsigned (bits : Nat) (i : Int) : Bool :=
  decide (0 ≤ i ∧ i < (Nat.pow 2 bits : Int))

/-- a value as messages name it; integers of more than 128 bits and floats out of range have no name -/
def Value.found? : Value → Option Found
  | string s => some (.string s)
  | integer i =>
    if fitsSigned 63 i || fitsUnsigned 64 i then some (.integer i)
    else if fitsSigned 127 i then some (.wideInteger i true)
    else if fitsUnsigned 128 i then some (.wideInteger i false)
    else none
  | float x => some (.float x)
  | unreadable => none
  | bool b => some (.bool b)
  | datetime _ => some .map
  | array _ => some .sequence
  | table _ => some .map

def Value.wrongShape (v : Value) (expected : Shape) : Error :=
  match v.found? with
  | some found => .config (.wrongShape found expected)
  | none => .config .malformed

/-- the date that a text spells -/
def Value.date? : Value → Option String
  | string s => (Datetime.ofChars? s.toList).map String.ofList
  | _ => none

/-- what the date key holds, if no other key stands before it -/
def dateEntry? : List (String × Value) → Option Value
  | (key, v) :: _ => if key = dateKey then some v else none
  | [] => none

mutual

/-- the value for slots, unless a number cannot be read or does not fit 64 bits, or a date key holds no date -/
def Value.toSlot? : Value → Option BlockTemplates.Value
  | .string s => some (.string s)
  | .integer i => if fitsSigned 63 i then some (.number (Number.ofInt i)) else none
  | .float x => some (.number x)
  | .unreadable => none
  | .bool b => some (.bool b)
  | .datetime text => some (.string text)
  | .array items => (itemsToSlots? items).map .list
  | .table entries =>
    match dateEntry? entries with
    | some v => v.date?.map .string
    | none => (entriesToSlots? entries).map .map

def itemsToSlots? : List Value → Option (List BlockTemplates.Value)
  | [] => some []
  | v :: rest => do
    let slot ← v.toSlot?
    let slots ← itemsToSlots? rest
    some (slot :: slots)

def entriesToSlots? : List (String × Value) → Option (List (String × BlockTemplates.Value))
  | [] => some []
  | (key, v) :: rest => do
    let slot ← v.toSlot?
    let slots ← entriesToSlots? rest
    some ((key, slot) :: slots)

end

end Toml

/-- the settings of a project -/
structure Config where
  /-- glob patterns for the files with templates -/
  sources : List String
  duplicates : Policy
  slots : Slots

namespace Config

/-- all files `*.tpl` of the root itself, no repeated names, no slots -/
def default : Config :=
  ⟨["*.tpl"], .error, Slots.empty⟩

/-- the policy that a configuration names -/
def policyOf (name : String) : Except Error Policy :=
  match Policy.ofName? name with
  | some policy => .ok policy
  | none => .error (.config (.unknownPolicy name))

/-- the setting `duplicates`: a name, or a table of one name with nothing in it -/
def readPolicy : Toml.Value → Except Error Policy
  | .string name => policyOf name
  | .table [(name, v)] => do
    let policy ← policyOf name
    match v with
    | .array [] => .ok policy
    | .table [] => .ok policy
    | _ => .error (.config .malformed)
  | _ => .error (.config .malformed)

def readStrings : List Toml.Value → Except Error (List String)
  | [] => .ok []
  | .string s :: rest => (readStrings rest).map (s :: ·)
  | v :: _ => .error (v.wrongShape .string)

/-- the setting `sources`: a list of strings -/
def readSources : Toml.Value → Except Error (List String)
  | .array items => readStrings items
  | v => .error (v.wrongShape .sequence)

/-- the first slot with a number that is not finite, and the number -/
def notFinite? (entries : List (String × Value)) : Option (String × Number) :=
  entries.findSome? fun (name, v) => v.notFinite?.map fun x => (name, x)

def readSlots : Toml.Value → Except Error Slots
  | .table entries =>
    match Toml.entriesToSlots? entries with
    | none => .error (.config .malformed)
    | some entries =>
      match notFinite? entries with
      | some (name, x) => .error (.config (.notFinite name x))
      | none => .ok (Slots.ofPairs entries)
  | .datetime text => .ok (Slots.empty.insert Toml.dateKey (.string text))
  | v => .error (v.wrongShape .map)

def set (config : Config) (name : String) (v : Toml.Value) : Except Error Config :=
  match name with
  | "sources" => (readSources v).map fun sources => { config with sources }
  | "duplicates" => (readPolicy v).map fun duplicates => { config with duplicates }
  | "slots" => (readSlots v).map fun slots => { config with slots }
  | _ => .error (.config (.unknownField name))

def setAll : List (String × Toml.Value) → Config → Except Error Config
  | [], config => .ok config
  | (name, v) :: rest, config => do
    let config ← config.set name v
    setAll rest config

/-- the configuration of a document; what it does not set has its default -/
def ofToml (text : String) : Except Error Config :=
  match Toml.Document.ofString? text with
  | some entries => setAll entries default
  | none => .error (.config .malformed)

end Config

end BlockTemplates
