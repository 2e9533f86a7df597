/-
Fingerprints have no collisions.

A name and slots have a fingerprint exactly if no number in the slots is NaN or infinite (`of_eq_ok_iff`), and from the
text of a fingerprint the name and the slots can be told (`of_injective`), since a fingerprint is the canonical JSON of
a list of the two.
-/
import BlockTemplates.Engine.Fingerprint
import BlockTemplates.Proofs.Json.Decodable
import BlockTemplates.Proofs.Value.Zeros

namespace BlockTemplates

namespace Value

theorem isFinite_iff {v : Value} : v.isFinite = true ↔ v.notFinite? = none :=
  Option.isNone_iff_eq_none

theorem entryNotFinite?_eq_none_iff {entries : List (String × Value)} :
    entryNotFinite? entries = none ↔ ∀ e ∈ entries, e.2.isFinite = true := by
  induction entries with
  | nil => simp [entryNotFinite?]
  | cons e rest ih => simp [entryNotFinite?, Option.or_eq_none_iff, isFinite_iff, ih]

theorem itemNotFinite?_eq_none_iff {items : List Value} :
    itemNotFinite? items = none ↔ ∀ v ∈ items, v.isFinite = true := by
  induction items with
  | nil => simp [itemNotFinite?]
  | cons v rest ih => simp [itemNotFinite?, Option.or_eq_none_iff, isFinite_iff, ih]

/-- what a path leads to in a finite value is finite -/
theorem isFinite_of_lookup {keys : List String} {v found : Value} (h : v.isFinite = true)
    (hfound : v.lookup keys = some found) : found.isFinite = true := by
  refine of_lookup (P := fun v => v.isFinite = true) ?_ ?_ h hfound
  · intro items h
    exact itemNotFinite?_eq_none_iff.1 (isFinite_iff.1 h)
  · intro entries h
    exact entryNotFinite?_eq_none_iff.1 (isFinite_iff.1 h)

end Value

namespace Slots

/-- no number in slots is NaN or infinite -/
def Finite (slots : Slots) : Prop :=
  slots.toValue.notFinite? = none

instance (slots : Slots) : Decidable slots.Finite :=
  inferInstanceAs (Decidable (_ = _))

theorem notFinite?_eq_none_iff {slots : Slots} : slots.notFinite? = none ↔ slots.Finite := by
  have hentries : slots.Finite ↔ ∀ e ∈ slots.entries, e.2.isFinite = true := Value.entryNotFinite?_eq_none_iff
  simp [notFinite?, hentries]

theorem checkFinite_eq_ok_iff {slots : Slots} : slots.checkFinite = .ok () ↔ slots.Finite := by
  rw [← notFinite?_eq_none_iff, checkFinite]
  cases slots.notFinite? <;> simp

theorem finite_empty : empty.Finite := rfl

/-- the slots that are passed to an invoked template are finite if all are -/
theorem Finite.within {slots : Slots} (h : slots.Finite) (scope : Option SlotPath) : (slots.within scope).Finite := by
  unfold Slots.within
  split
  · exact h
  · split
    · next hfound => exact Value.isFinite_iff.1 (Value.isFinite_of_lookup (Value.isFinite_iff.2 h) hfound)
    · exact finite_empty

end Slots

namespace Fingerprint

/-- exactly finite slots have a fingerprint, and it is the canonical text -/
theorem of_eq_ok_iff {name : String} {slots : Slots} {key : Fingerprint} :
    of name slots = .ok key ↔ slots.Finite ∧ key = ⟨String.ofList (textOf name slots)⟩ := by
  rw [← Slots.checkFinite_eq_ok_iff, of]
  cases slots.checkFinite with
  | error e => simp [bind, Except.bind]
  | ok u => simp [bind, Except.bind, pure, Except.pure, eq_comm]

theorem of_finite {slots : Slots} (h : slots.Finite) (name : String) :
    of name slots = .ok ⟨String.ofList (textOf name slots)⟩ :=
  of_eq_ok_iff.2 ⟨h, rfl⟩

/-- the only fault of a fingerprint is that of the slots -/
theorem checkFinite_of_error {name : String} {slots : Slots} {e : Error} (h : of name slots = .error e) :
    slots.checkFinite = .error e := by
  rw [of] at h
  rcases hslots : slots.checkFinite with e' | u
  · rw [hslots] at h
    have hsame : e' = e := Except.error.inj h
    rw [hsame]
  · rw [hslots] at h
    cases h

/-- where there is no fingerprint, a slot is named that is not finite -/
theorem exists_slot_of_error {name : String} {slots : Slots} {e : Error} (h : of name slots = .error e) :
    ∃ slot, e = .invalidSlots (.notFinite slot) := by
  have hslots := checkFinite_of_error h
  rw [Slots.checkFinite] at hslots
  split at hslots
  · next slot _ => exact ⟨slot, (Except.error.inj hslots).symm⟩
  · cases hslots

/-- a fingerprint is given to one name and one collection of slots -/
theorem of_injective {n m : String} {a b : Slots} {key : Fingerprint} (ha : of n a = .ok key) (hb : of m b = .ok key) :
    n = m ∧ a = b := by
  obtain ⟨hfinite, rfl⟩ := of_eq_ok_iff.1 ha
  obtain ⟨hfinite', hkey⟩ := of_eq_ok_iff.1 hb
  have htext : textOf n a = textOf m b := String.ofList_injective (Fingerprint.mk.inj hkey)
  have hpair : ∀ {name : String} {slots : Slots}, slots.Finite →
      (Value.list [.string name, slots.toValue]).notFinite? = none := by
    intro name slots h
    simpa [Value.notFinite?, Value.itemNotFinite?, Slots.Finite] using h
  have hvalue := Json.value_injective (hpair hfinite) (hpair hfinite') htext
  obtain ⟨hname, hrest⟩ := List.cons.inj (Value.list.inj hvalue)
  exact ⟨Value.string.inj hname, Slots.ext_toValue (List.cons.inj hrest).1⟩

/-- **Fingerprints have no collisions.** If the fingerprints of two renders have the same text, the names are the same
and the slots are identical, so they are also equal as slots. -/
theorem render_of_fingerprint_text {n m : String} {a b : Slots} {j k : Fingerprint} (hj : of n a = .ok j)
    (hk : of m b = .ok k) (h : j.text = k.text) : n = m ∧ a = b ∧ a.same b = true := by
  obtain ⟨j⟩ := j
  obtain rfl : k = ⟨j⟩ := by cases k; exact congrArg _ h.symm
  obtain ⟨rfl, rfl⟩ := of_injective hj hk
  exact ⟨rfl, rfl, Value.same_self a.toValue (of_eq_ok_iff.1 hj).1⟩

/-- slots whose names and strings hold the signs of JSON, with both zeros, an empty list and an empty map -/
def quotedSlots : Slots :=
  ⟨[("\"],[", .list [.number (.zero true), .string "1", .list [], .map []]),
    ("a,b", .map [("1", .number (.zero false)), ("]", .string "\\\"")])], by decide⟩

/-- the same slots, filled in another order, have the same fingerprint under a name that holds quotes -/
theorem render_of_fingerprint_text_quoted :
    ∃ j k, of "t\",\x7b" quotedSlots = .ok j ∧ of "t\",\x7b" (Slots.ofPairs quotedSlots.entries.reverse) = .ok k ∧
      j.text = k.text ∧ quotedSlots = Slots.ofPairs quotedSlots.entries.reverse := by
  have hsame : quotedSlots = Slots.ofPairs quotedSlots.entries.reverse := rfl
  have hfinite : quotedSlots.Finite := by decide
  have hfinite' : (Slots.ofPairs quotedSlots.entries.reverse).Finite := by decide
  have hj := of_finite hfinite "t\",\x7b"
  have hk := of_finite hfinite' "t\",\x7b"
  have htext := congrArg (fun slots => String.ofList (textOf "t\",\x7b" slots)) hsame
  exact ⟨_, _, hj, hk, htext, (render_of_fingerprint_text hj hk htext).2.1⟩

end Fingerprint

end BlockTemplates
