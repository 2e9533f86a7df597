/-
Values with their maps in order.

A value is ordered if the entries of all maps in it ascend. `sorted` puts them in order; of equal keys the last counts.
`isOrdered_sorted` says that this is enough, `sorted_eq_self` that an ordered value stays as it is, and
`isOrdered_of_lookup` that what a path leads to in an ordered value is ordered as well.
-/
import BlockTemplates.Value.Basic

namespace BlockTemplates

namespace Value

mutual

/-- whether the entries of all maps in a value ascend -/
def isOrdered : Value → Bool
  | list items => allOrdered items
  | map entries => decide (Entries.Ascending entries) && allEntriesOrdered entries
  | _ => true

def allOrdered : List Value → Bool
  | [] => true
  | v :: rest => isOrdered v && allOrdered rest

def allEntriesOrdered : List (String × Value) → Bool
  | [] => true
  | (_, v) :: rest => isOrdered v && allEntriesOrdered rest

end

mutual

/-- a value with the entries of all its maps in order -/
def sorted : Value → Value
  | list items => list (sortedItems items)
  | map entries => map (Entries.ofPairs (sortedEntries entries))
  | v => v

def sortedItems : List Value → List Value
  | [] => []
  | v :: rest => sorted v :: sortedItems rest

def sortedEntries : List (String × Value) → List (String × Value)
  | [] => []
  | (key, v) :: rest => (key, sorted v) :: sortedEntries rest

end

theorem isOrdered_map_iff {entries : Entries Value} :
    (map entries).isOrdered = true ↔ entries.Ascending ∧ allEntriesOrdered entries = true := by
  simp [isOrdered]

theorem allEntriesOrdered_iff {entries : List (String × Value)} :
    allEntriesOrdered entries = true ↔ ∀ e ∈ entries, e.2.isOrdered = true := by
  induction entries with
  | nil => simp [allEntriesOrdered]
  | cons e rest ih => simp [allEntriesOrdered, ih]

theorem allOrdered_iff {items : List Value} : allOrdered items = true ↔ ∀ v ∈ items, v.isOrdered = true := by
  induction items with
  | nil => simp [allOrdered]
  | cons v rest ih => simp [allOrdered, ih]

theorem isOrdered_insert {entries : Entries Value} {v : Value} (h : (map entries).isOrdered = true)
    (hv : v.isOrdered = true) (key : String) : (map (entries.insert key v)).isOrdered = true := by
  rw [isOrdered_map_iff, allEntriesOrdered_iff] at h ⊢
  refine ⟨Entries.ascending_insert h.1, fun e he => ?_⟩
  cases Entries.eq_or_mem_of_mem_insert he with
  | inl heq => exact heq ▸ hv
  | inr hmem => exact h.2 e hmem

theorem isOrdered_extend {lower upper : Entries Value} (hlower : (map lower).isOrdered = true)
    (hupper : allEntriesOrdered upper = true) : (map (lower.extend upper)).isOrdered = true := by
  rw [allEntriesOrdered_iff] at hupper
  induction upper with
  | nil => exact hlower
  | cons e rest ih =>
    exact isOrdered_insert (ih fun e he => hupper e (List.mem_cons_of_mem _ he)) (hupper e List.mem_cons_self) e.1

theorem isOrdered_ofPairs {pairs : List (String × Value)} (h : allEntriesOrdered pairs = true) :
    (map (Entries.ofPairs pairs)).isOrdered = true := by
  have key : ∀ (rest : List (String × Value)) (entries : Entries Value), allEntriesOrdered rest = true →
      (map entries).isOrdered = true →
        (map (rest.foldl (fun entries (key, value) => Entries.insert key value entries) entries)).isOrdered = true := by
    intro rest
    induction rest with
    | nil => exact fun entries _ he => he
    | cons e rest ih =>
      intro entries hrest he
      simp only [allEntriesOrdered, Bool.and_eq_true] at hrest
      exact ih _ hrest.2 (isOrdered_insert he hrest.1 e.1)
  exact key pairs [] h rfl

mutual

theorem isOrdered_sorted : (v : Value) → v.sorted.isOrdered = true
  | bool _ => rfl
  | number _ => rfl
  | string _ => rfl
  | list items => by simpa [sorted, isOrdered] using allOrdered_sortedItems items
  | map entries => isOrdered_ofPairs (allEntriesOrdered_sortedEntries entries)

theorem allOrdered_sortedItems : (items : List Value) → allOrdered (sortedItems items) = true
  | [] => rfl
  | v :: rest => by simp [sortedItems, allOrdered, isOrdered_sorted v, allOrdered_sortedItems rest]

theorem allEntriesOrdered_sortedEntries :
    (entries : List (String × Value)) → allEntriesOrdered (sortedEntries entries) = true
  | [] => rfl
  | (_, v) :: rest => by
    simp [sortedEntries, allEntriesOrdered, isOrdered_sorted v, allEntriesOrdered_sortedEntries rest]

end

mutual

/-- sorting leaves an ordered value as it is -/
theorem sorted_eq_self : (v : Value) → v.isOrdered = true → v.sorted = v
  | bool _, _ => rfl
  | number _, _ => rfl
  | string _, _ => rfl
  | list items, h => congrArg list (sortedItems_eq_self items h)
  | map entries, h => by
    obtain ⟨hascending, hvalues⟩ := isOrdered_map_iff.1 h
    rw [sorted, sortedEntries_eq_self entries hvalues, Entries.ofPairs_eq_self hascending]

theorem sortedItems_eq_self : (items : List Value) → allOrdered items = true → sortedItems items = items
  | [], _ => rfl
  | v :: rest, h => by
    obtain ⟨hv, hrest⟩ := Bool.and_eq_true_iff.1 h
    rw [sortedItems, sorted_eq_self v hv, sortedItems_eq_self rest hrest]

theorem sortedEntries_eq_self :
    (entries : List (String × Value)) → allEntriesOrdered entries = true → sortedEntries entries = entries
  | [], _ => rfl
  | (_, v) :: rest, h => by
    obtain ⟨hv, hrest⟩ := Bool.and_eq_true_iff.1 h
    rw [sortedEntries, sorted_eq_self v hv, sortedEntries_eq_self rest hrest]

end

/-- what a path leads to in an ordered value is ordered -/
theorem isOrdered_of_lookup {keys : List String} {v found : Value} (h : v.isOrdered = true)
    (hfound : v.lookup keys = some found) : found.isOrdered = true := by
  refine of_lookup (P := fun v => v.isOrdered = true) ?_ ?_ h hfound
  · intro items h
    exact allOrdered_iff.1 h
  · intro entries h
    exact allEntriesOrdered_iff.1 (isOrdered_map_iff.1 h).2

end Value

end BlockTemplates
