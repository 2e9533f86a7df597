/-
Values with other numbers in them, and how deep containers nest.

`mapNumbers f` replaces every number of a value and keeps everything else: the kinds of all values, the strings, the
booleans, the items of lists in their order and the keys of maps in theirs (`isOrdered_mapNumbers`). A value whose
numbers `f` keeps is kept (`mapNumbers_eq_self`).
-/
import BlockTemplates.Slots

namespace BlockTemplates

namespace Value

variable (f : Number → Number)

mutual

/-- a value with all its numbers replaced -/
def mapNumbers : Value → Value
  | number x => number (f x)
  | list items => list (mapItems items)
  | map entries => map (mapEntries entries)
  | v => v

def mapItems : List Value → List Value
  | [] => []
  | v :: rest => mapNumbers v :: mapItems rest

def mapEntries : List (String × Value) → List (String × Value)
  | [] => []
  | (key, v) :: rest => (key, mapNumbers v) :: mapEntries rest

end

mutual

/-- how many containers nest in a value -/
def depth : Value → Nat
  | list items => itemDepth items + 1
  | map entries => entryDepth entries + 1
  | _ => 0

def itemDepth : List Value → Nat
  | [] => 0
  | v :: rest => max (depth v) (itemDepth rest)

def entryDepth : List (String × Value) → Nat
  | [] => 0
  | (_, v) :: rest => max (depth v) (entryDepth rest)

end

mutual

/-- whether every number in a value satisfies a property -/
def NumbersAre (P : Number → Prop) : Value → Prop
  | number x => P x
  | list items => ItemNumbersAre P items
  | map entries => EntryNumbersAre P entries
  | _ => True

def ItemNumbersAre (P : Number → Prop) : List Value → Prop
  | [] => True
  | v :: rest => NumbersAre P v ∧ ItemNumbersAre P rest

def EntryNumbersAre (P : Number → Prop) : List (String × Value) → Prop
  | [] => True
  | (_, v) :: rest => NumbersAre P v ∧ EntryNumbersAre P rest

end

section

variable {P : Number → Prop} [DecidablePred P]

mutual

/-- a decidable property of numbers can be decided of all numbers in a value -/
def decideNumbersAre : (v : Value) → Decidable (NumbersAre P v)
  | number x => inferInstanceAs (Decidable (P x))
  | list items => decideItemNumbersAre items
  | map entries => decideEntryNumbersAre entries
  | bool _ => isTrue trivial
  | string _ => isTrue trivial

def decideItemNumbersAre : (items : List Value) → Decidable (ItemNumbersAre P items)
  | [] => isTrue trivial
  | v :: rest =>
    @instDecidableAnd (NumbersAre P v) (ItemNumbersAre P rest) (decideNumbersAre v) (decideItemNumbersAre rest)

def decideEntryNumbersAre : (entries : List (String × Value)) → Decidable (EntryNumbersAre P entries)
  | [] => isTrue trivial
  | (_, v) :: rest =>
    @instDecidableAnd (NumbersAre P v) (EntryNumbersAre P rest) (decideNumbersAre v) (decideEntryNumbersAre rest)

end

instance (v : Value) : Decidable (NumbersAre P v) :=
  decideNumbersAre v

end

mutual

/-- if its numbers are kept, a value is kept, and only then -/
theorem mapNumbers_eq_self_iff : (v : Value) → (mapNumbers f v = v ↔ NumbersAre (fun x => f x = x) v)
  | bool _ => by simp [mapNumbers, NumbersAre]
  | number x => by simp [mapNumbers, NumbersAre]
  | string _ => by simp [mapNumbers, NumbersAre]
  | list items => by simp [mapNumbers, NumbersAre, mapItems_eq_self_iff items]
  | map entries => by simp [mapNumbers, NumbersAre, mapEntries_eq_self_iff entries]

theorem mapItems_eq_self_iff : (items : List Value) →
    (mapItems f items = items ↔ ItemNumbersAre (fun x => f x = x) items)
  | [] => by simp [mapItems, ItemNumbersAre]
  | v :: rest => by simp [mapItems, ItemNumbersAre, mapNumbers_eq_self_iff v, mapItems_eq_self_iff rest]

theorem mapEntries_eq_self_iff : (entries : List (String × Value)) →
    (mapEntries f entries = entries ↔ EntryNumbersAre (fun x => f x = x) entries)
  | [] => by simp [mapEntries, EntryNumbersAre]
  | (_, v) :: rest => by simp [mapEntries, EntryNumbersAre, mapNumbers_eq_self_iff v, mapEntries_eq_self_iff rest]

end

/-! ## The order of the keys -/

theorem mapEntries_eq_map (entries : List (String × Value)) :
    mapEntries f entries = entries.map fun e => (e.1, mapNumbers f e.2) := by
  induction entries with
  | nil => rfl
  | cons e rest ih => rw [mapEntries, ih, List.map_cons]

theorem ascending_mapEntries {entries : List (String × Value)} (h : Entries.Ascending entries) :
    Entries.Ascending (mapEntries f entries) := by
  rw [mapEntries_eq_map]
  exact List.pairwise_map.2 h

mutual

theorem isOrdered_mapNumbers : (v : Value) → v.isOrdered = true → (mapNumbers f v).isOrdered = true
  | bool _, _ => rfl
  | number _, _ => rfl
  | string _, _ => rfl
  | list items, h => allOrdered_mapItems items h
  | map entries, h => by
    obtain ⟨hascending, hvalues⟩ := isOrdered_map_iff.1 h
    exact isOrdered_map_iff.2 ⟨ascending_mapEntries f hascending, allEntriesOrdered_mapEntries entries hvalues⟩

theorem allOrdered_mapItems : (items : List Value) → allOrdered items = true → allOrdered (mapItems f items) = true
  | [], _ => rfl
  | v :: rest, h => by
    obtain ⟨hv, hrest⟩ := Bool.and_eq_true_iff.1 h
    rw [mapItems, allOrdered, isOrdered_mapNumbers v hv, allOrdered_mapItems rest hrest]
    rfl

theorem allEntriesOrdered_mapEntries : (entries : List (String × Value)) → allEntriesOrdered entries = true →
    allEntriesOrdered (mapEntries f entries) = true
  | [], _ => rfl
  | (_, v) :: rest, h => by
    obtain ⟨hv, hrest⟩ := Bool.and_eq_true_iff.1 h
    rw [mapEntries, allEntriesOrdered, isOrdered_mapNumbers v hv, allEntriesOrdered_mapEntries rest hrest]
    rfl

end

end Value

namespace Slots

/-- slots with all their numbers replaced -/
def mapNumbers (f : Number → Number) (slots : Slots) : Slots :=
  ⟨Value.mapEntries f slots.entries, Value.isOrdered_mapNumbers f (.map slots.entries) slots.ordered⟩

end Slots

end BlockTemplates
