/-
What keeps values and slots finite.

Putting a value's maps in order, setting a slot and laying slots over one another bring no number in that was not there:
`Value.isFinite_sorted`, `Slots.Finite.insert`, `Slots.Finite.extend`, `Slots.finite_ofPairs`.
-/
import BlockTemplates.Proofs.Engine.Fingerprint

namespace BlockTemplates

namespace Entries

variable {α : Type}

theorem mem_of_mem_ofPairs {pairs : List (String × α)} {e : String × α} (h : e ∈ ofPairs pairs) : e ∈ pairs := by
  have hall : ∀ e ∈ ofPairs pairs, e ∈ pairs := by
    unfold ofPairs
    refine List.foldlRecOn (motive := fun entries => ∀ e ∈ entries, e ∈ pairs) pairs _ ?_ ?_
    · exact fun e he => absurd he List.not_mem_nil
    · intro entries hentries first hfirst e he
      rcases eq_or_mem_of_mem_insert he with rfl | hmem
      · exact hfirst
      · exact hentries e hmem
  exact hall e h

/-- an entry of two collections laid over one another is an entry of one of them -/
theorem mem_or_mem_of_mem_extend {lower upper : Entries α} {e : String × α} (h : e ∈ lower.extend upper) :
    e ∈ upper ∨ e ∈ lower := by
  induction upper with
  | nil => exact .inr h
  | cons first rest ih =>
    rcases eq_or_mem_of_mem_insert h with rfl | hmem
    · exact .inl List.mem_cons_self
    · exact (ih hmem).imp_left (List.mem_cons_of_mem first)

end Entries

namespace Value

theorem isFinite_list_iff {items : List Value} : (list items).isFinite = true ↔ ∀ v ∈ items, v.isFinite = true := by
  rw [isFinite_iff, ← itemNotFinite?_eq_none_iff, notFinite?]

theorem isFinite_map_iff {entries : List (String × Value)} :
    (map entries).isFinite = true ↔ ∀ e ∈ entries, e.2.isFinite = true := by
  rw [isFinite_iff, ← entryNotFinite?_eq_none_iff, notFinite?]

theorem isFinite_number_iff {x : Number} : (number x).isFinite = true ↔ x.isFinite = true := by
  rw [isFinite_iff, notFinite?]
  cases x.isFinite <;> simp

/-- a map of finite values is finite, whatever their order and whichever of equal keys counts -/
theorem isFinite_map_ofPairs {pairs : List (String × Value)} (h : ∀ e ∈ pairs, e.2.isFinite = true) :
    (map (Entries.ofPairs pairs)).isFinite = true :=
  isFinite_map_iff.2 fun e he => h e (Entries.mem_of_mem_ofPairs he)

mutual

theorem isFinite_sorted : (v : Value) → v.isFinite = true → v.sorted.isFinite = true
  | bool _, h => h
  | number _, h => h
  | string _, h => h
  | list items, h => isFinite_list_iff.2 (isFinite_sortedItems items (isFinite_list_iff.1 h))
  | map entries, h => isFinite_map_ofPairs (isFinite_sortedEntries entries (isFinite_map_iff.1 h))

theorem isFinite_sortedItems : (items : List Value) → (∀ v ∈ items, v.isFinite = true) →
    ∀ v ∈ sortedItems items, v.isFinite = true
  | [], _ => nofun
  | v :: rest, h => by
    obtain ⟨hv, hrest⟩ := List.forall_mem_cons.1 h
    exact List.forall_mem_cons.2 ⟨isFinite_sorted v hv, isFinite_sortedItems rest hrest⟩

theorem isFinite_sortedEntries : (entries : List (String × Value)) → (∀ e ∈ entries, e.2.isFinite = true) →
    ∀ e ∈ sortedEntries entries, e.2.isFinite = true
  | [], _ => nofun
  | (_, v) :: rest, h => by
    obtain ⟨hv, hrest⟩ := List.forall_mem_cons.1 h
    exact List.forall_mem_cons.2 ⟨isFinite_sorted v hv, isFinite_sortedEntries rest hrest⟩

end

end Value

namespace Slots

variable {slots lower upper : Slots}

theorem finite_iff : slots.Finite ↔ ∀ e ∈ slots.entries, e.2.isFinite = true :=
  Value.entryNotFinite?_eq_none_iff

theorem Finite.insert (h : slots.Finite) {value : Value} (hvalue : value.isFinite = true) (name : String) :
    (slots.insert name value).Finite := by
  rw [finite_iff] at h ⊢
  intro e he
  rcases Entries.eq_or_mem_of_mem_insert he with rfl | hmem
  · exact Value.isFinite_sorted value hvalue
  · exact h e hmem

theorem Finite.extend (hlower : lower.Finite) (hupper : upper.Finite) : (lower.extend upper).Finite := by
  rw [finite_iff] at hlower hupper ⊢
  intro e he
  exact (Entries.mem_or_mem_of_mem_extend he).elim (hupper e) (hlower e)

theorem finite_ofPairs {pairs : List (String × Value)} (h : ∀ e ∈ pairs, e.2.isFinite = true) :
    (ofPairs pairs).Finite := by
  unfold ofPairs
  exact List.foldlRecOn pairs _ finite_empty fun slots hslots e he => hslots.insert (h e he) e.1

end Slots

end BlockTemplates
