/-
Entries: keys with values, in ascending order of the keys.

Keys are compared by code points. `insert` keeps the order and replaces the value of a key that is there, so two
collections of the same entries are equal however they were built. `get?_insert` and `get?_extend` say what a key holds
afterwards, `ascending_insert` that the order is kept.
-/
namespace BlockTemplates

/-- keys with values, ascending by key -/
abbrev Entries (α : Type) := List (String × α)

namespace Entries

variable {α : Type}

def get? (key : String) : Entries α → Option α
  | [] => none
  | (k, v) :: rest => if k = key then some v else get? key rest

def insert (key : String) (value : α) : Entries α → Entries α
  | [] => [(key, value)]
  | (k, v) :: rest =>
    if key < k then (key, value) :: (k, v) :: rest
    else if key = k then (key, value) :: rest
    else (k, v) :: insert key value rest

/-- the entries of `upper`, and those of `lower` under other keys -/
def extend (lower upper : Entries α) : Entries α :=
  upper.foldr (fun (key, value) entries => insert key value entries) lower

/-- the entries of pairs in any order; the last pair of a key counts -/
def ofPairs (pairs : List (String × α)) : Entries α :=
  pairs.foldl (fun entries (key, value) => insert key value entries) []

/-- whether every key is less than all keys behind it -/
def Ascending (entries : Entries α) : Prop :=
  entries.Pairwise fun a b => a.1 < b.1

instance (entries : Entries α) : Decidable entries.Ascending :=
  inferInstanceAs (Decidable (List.Pairwise _ _))

@[simp] theorem get?_insert (key other : String) (value : α) (entries : Entries α) :
    (entries.insert key value).get? other = if key = other then some value else entries.get? other := by
  induction entries with
  | nil => simp [insert, get?]
  | cons e rest ih =>
    obtain ⟨k, v⟩ := e
    simp only [insert]
    split
    · simp [get?]
    · split
      · next h => subst h; simp only [get?]; split <;> rfl
      · next h =>
        simp only [get?, ih]
        split
        · next hk => subst hk; simp [h]
        · rfl

/-- an upper entry covers the lower one of its key -/
@[simp] theorem get?_extend (key : String) (lower upper : Entries α) :
    (lower.extend upper).get? key = (upper.get? key).or (lower.get? key) := by
  induction upper with
  | nil => simp [extend, get?]
  | cons e rest ih =>
    obtain ⟨k, v⟩ := e
    have step : lower.extend ((k, v) :: rest) = (lower.extend rest).insert k v := rfl
    rw [step, get?_insert, ih]
    simp only [get?]
    split <;> simp

theorem eq_or_mem_of_mem_insert {key : String} {value : α} {entries : Entries α} {e : String × α}
    (h : e ∈ entries.insert key value) : e = (key, value) ∨ e ∈ entries := by
  induction entries with
  | nil => simpa [insert] using h
  | cons first rest ih =>
    obtain ⟨k, v⟩ := first
    simp only [insert] at h
    split at h
    · simpa using h
    · split at h
      · exact (List.mem_cons.1 h).imp id (List.mem_cons_of_mem _)
      · cases List.mem_cons.1 h with
        | inl e => exact .inr (e ▸ List.mem_cons_self)
        | inr m => exact (ih m).imp id (List.mem_cons_of_mem _)

/-- of two keys one is less, unless they are equal -/
theorem lt_of_not_lt {a b : String} (hlt : ¬a < b) (hne : a ≠ b) : b < a := by
  by_cases h : b < a
  · exact h
  · exact absurd (String.le_antisymm (String.not_lt.1 h) (String.not_lt.1 hlt)) hne

theorem ascending_insert {key : String} {value : α} {entries : Entries α} (h : entries.Ascending) :
    (entries.insert key value).Ascending := by
  induction entries with
  | nil => exact List.pairwise_singleton _ _
  | cons first rest ih =>
    obtain ⟨k, v⟩ := first
    obtain ⟨hfirst, hrest⟩ := List.pairwise_cons.1 h
    simp only [insert]
    split
    · next hlt =>
      refine List.pairwise_cons.2 ⟨fun e he => ?_, h⟩
      cases List.mem_cons.1 he with
      | inl heq => exact heq ▸ hlt
      | inr hmem => exact String.lt_trans hlt (hfirst e hmem)
    · next hlt =>
      split
      · next heq => exact List.pairwise_cons.2 ⟨fun e he => heq ▸ hfirst e he, hrest⟩
      · next hne =>
        refine List.pairwise_cons.2 ⟨fun e he => ?_, ih hrest⟩
        cases eq_or_mem_of_mem_insert he with
        | inl heq => exact heq ▸ lt_of_not_lt hlt hne
        | inr hmem => exact hfirst e hmem

theorem insert_eq_append {key : String} {value : α} {entries : Entries α} (h : ∀ e ∈ entries, e.1 < key) :
    entries.insert key value = entries ++ [(key, value)] := by
  induction entries with
  | nil => rfl
  | cons first rest ih =>
    obtain ⟨k, v⟩ := first
    have hk : k < key := h (k, v) List.mem_cons_self
    have hlt : ¬key < k := fun hback => String.lt_irrefl _ (String.lt_trans hk hback)
    have hne : key ≠ k := fun heq => String.lt_irrefl k (heq ▸ hk)
    rw [insert, if_neg hlt, if_neg hne, ih fun e he => h e (List.mem_cons_of_mem _ he), List.cons_append]

/-- entries that are in order stay as they are -/
theorem ofPairs_eq_self {entries : Entries α} (h : entries.Ascending) : ofPairs entries = entries := by
  have key : ∀ rest first : Entries α, Ascending (first ++ rest) →
      rest.foldl (fun entries (key, value) => insert key value entries) first = first ++ rest := by
    intro rest
    induction rest with
    | nil => exact fun first _ => (List.append_nil first).symm
    | cons e rest ih =>
      intro first hfirst
      obtain ⟨k, v⟩ := e
      have hlast : ∀ a ∈ first, a.1 < k := fun a ha =>
        (List.pairwise_append.1 hfirst).2.2 a ha (k, v) List.mem_cons_self
      simpa [insert_eq_append hlast] using ih (first ++ [(k, v)]) (by simpa using hfirst)
  exact key entries [] h

theorem mem_of_get? {key : String} {value : α} {entries : Entries α} (h : entries.get? key = some value) :
    (key, value) ∈ entries := by
  induction entries with
  | nil => simp [get?] at h
  | cons first rest ih =>
    obtain ⟨k, v⟩ := first
    simp only [get?] at h
    split at h
    · next heq => exact heq ▸ Option.some.inj h ▸ List.mem_cons_self
    · exact List.mem_cons_of_mem _ (ih h)

end Entries

end BlockTemplates
