/-
Values of slots.

A value is a boolean, a number, a string, a list, or a map with its entries in key order. `lookup` follows keys into
maps and indexes into lists, `same` is equality with numbers compared as numbers, and `notFinite?` looks for NaN and
infinities at any depth.
-/
import BlockTemplates.Number.Basic
import BlockTemplates.Value.Entries

namespace BlockTemplates

/-- the value of a slot -/
inductive Value where
  | bool (b : Bool)
  | number (x : Number)
  | string (s : String)
  | list (items : List Value)
  | map (entries : List (String × Value))
  deriving Inhabited

namespace Value

/-- a list index: decimal digits, perhaps behind a plus sign, of a 64 bit number -/
def index? (key : List Char) : Option Nat :=
  let digits :=
    match key with
    | '+' :: rest => rest
    | _ => key
  if digits.isEmpty || !digits.all Char.isDigit then none
  else
    let n := Nat.ofDigitChars 10 digits 0
    if n < Nat.pow 2 64 then some n else none

/-- what one key leads to -/
def child? (key : String) : Value → Option Value
  | map entries => Entries.get? key entries
  | list items => (index? key.toList).bind fun i => items[i]?
  | _ => none

/-- what a path of keys leads to -/
def lookup : List String → Value → Option Value
  | [], v => some v
  | key :: keys, v => (v.child? key).bind (lookup keys)

section

variable {P : Value → Prop} (hitems : ∀ {items}, P (list items) → ∀ v ∈ items, P v)
  (hentries : ∀ {entries}, P (map entries) → ∀ entry ∈ entries, P entry.2)

include hitems hentries

theorem of_child? {v child : Value} {key : String} (h : P v) (hchild : v.child? key = some child) : P child := by
  cases v with
  | map entries => exact hentries h _ (Entries.mem_of_get? hchild)
  | list items =>
    obtain ⟨i, -, hi⟩ := Option.bind_eq_some_iff.1 hchild
    exact hitems h _ (List.mem_of_getElem? hi)
  | bool b => cases hchild
  | number x => cases hchild
  | string s => cases hchild

/-- what lists pass to their items, and maps to their values, comes to what a path leads to -/
theorem of_lookup {keys : List String} {v found : Value} (h : P v) (hfound : v.lookup keys = some found) : P found := by
  induction keys generalizing v with
  | nil => exact Option.some.inj hfound ▸ h
  | cons key keys ih =>
    obtain ⟨child, hchild, hrest⟩ := Option.bind_eq_some_iff.1 hfound
    exact ih (of_child? hitems hentries h hchild) hrest

end

def entries? : Value → Option (Entries Value)
  | map entries => some entries
  | _ => none

mutual

/-- the first number in a value that is NaN or infinite -/
def notFinite? : Value → Option Number
  | bool _ => none
  | number x => if x.isFinite then none else some x
  | string _ => none
  | list items => itemNotFinite? items
  | map entries => entryNotFinite? entries

def itemNotFinite? : List Value → Option Number
  | [] => none
  | v :: rest => (notFinite? v).or (itemNotFinite? rest)

def entryNotFinite? : List (String × Value) → Option Number
  | [] => none
  | (_, v) :: rest => (notFinite? v).or (entryNotFinite? rest)

end

def isFinite (v : Value) : Bool :=
  v.notFinite?.isNone

mutual

/-- equality of values; numbers are compared by `Number.same` -/
def same : Value → Value → Bool
  | bool a, bool b => a == b
  | number x, number y => x.same y
  | string s, string t => s == t
  | list xs, list ys => sameItems xs ys
  | map xs, map ys => sameEntries xs ys
  | _, _ => false

def sameItems : List Value → List Value → Bool
  | [], [] => true
  | x :: xs, y :: ys => same x y && sameItems xs ys
  | _, _ => false

def sameEntries : List (String × Value) → List (String × Value) → Bool
  | [], [] => true
  | (k, x) :: xs, (l, y) :: ys => k == l && same x y && sameEntries xs ys
  | _, _ => false

end

end Value

end BlockTemplates
