/-
Equality of values and the signs of zeros.

`Value.same` compares numbers as numbers, so it does not tell the two zeros apart, while their texts differ. `zeroSigns`
lists the signs of all zeros in a value, in the order in which they stand there.

Results:
- `eq_of_same`: equal values are identical if their zeros have the same signs.
- `same_self`: a finite value is equal to itself; NaN is why this needs finite values.
-/
import BlockTemplates.Slots

namespace BlockTemplates

/-- the zero with a sign -/
def Number.zero (negative : Bool) : Number :=
  finite negative ⟨0, by decide⟩

/-- the sign of a zero; nothing for other numbers -/
def Number.zeroSigns : Number → List Bool
  | finite negative step => if step.val = 0 then [negative] else []
  | _ => []

theorem Number.eq_of_same {x y : Number} (h : x.same y = true) (hsigns : x.zeroSigns = y.zeroSigns) : x = y := by
  cases x with
  | nan => cases h
  | infinite a =>
    cases y with
    | infinite b => rw [eq_of_beq (h : (a == b) = true)]
    | nan => cases h
    | finite b n => cases h
  | finite a m =>
    cases y with
    | finite b n =>
      obtain ⟨hstep, hsign⟩ := Bool.and_eq_true_iff.1 h
      obtain rfl := eq_of_beq hstep
      rcases Bool.or_eq_true_iff.1 hsign with hsign | hzero
      · rw [eq_of_beq hsign]
      · have hzero : m.val = 0 := eq_of_beq hzero
        simp only [zeroSigns, hzero, if_true, List.cons.injEq, and_true] at hsigns
        rw [hsigns]
    | nan => cases h
    | infinite b => cases h

theorem Number.length_zeroSigns {x y : Number} (h : x.same y = true) : x.zeroSigns.length = y.zeroSigns.length := by
  cases x with
  | nan => cases h
  | infinite a =>
    cases y with
    | infinite b => rfl
    | nan => cases h
    | finite b n => cases h
  | finite a m =>
    cases y with
    | finite b n =>
      obtain rfl := eq_of_beq (Bool.and_eq_true_iff.1 h).1
      simp only [zeroSigns]
      split <;> rfl
    | nan => cases h
    | infinite b => cases h

theorem Number.same_self {x : Number} (h : x.isFinite = true) : x.same x = true := by
  cases x with
  | nan => cases h
  | infinite a => cases h
  | finite a m => simp [same]

namespace Value

mutual

/-- the signs of the zeros in a value, in order -/
def zeroSigns : Value → List Bool
  | number x => x.zeroSigns
  | list items => itemZeroSigns items
  | map entries => entryZeroSigns entries
  | _ => []

def itemZeroSigns : List Value → List Bool
  | [] => []
  | v :: rest => zeroSigns v ++ itemZeroSigns rest

def entryZeroSigns : List (String × Value) → List Bool
  | [] => []
  | (_, v) :: rest => zeroSigns v ++ entryZeroSigns rest

end

mutual

/-- equal values have their zeros in the same places -/
theorem length_zeroSigns : (v w : Value) → v.same w = true → v.zeroSigns.length = w.zeroSigns.length
  | v, w, h => by
    cases v with
    | bool a => cases w <;> first | rfl | cases h
    | number x =>
      cases w with
      | number y => exact Number.length_zeroSigns h
      | _ => cases h
    | string a => cases w <;> first | rfl | cases h
    | list xs =>
      cases w with
      | list ys => exact length_itemZeroSigns xs ys h
      | _ => cases h
    | map xs =>
      cases w with
      | map ys => exact length_entryZeroSigns xs ys h
      | _ => cases h

theorem length_itemZeroSigns : (xs ys : List Value) → sameItems xs ys = true →
    (itemZeroSigns xs).length = (itemZeroSigns ys).length
  | [], [], _ => rfl
  | [], _ :: _, h => nomatch h
  | _ :: _, [], h => nomatch h
  | x :: xs, y :: ys, h => by
    obtain ⟨hx, hxs⟩ := Bool.and_eq_true_iff.1 h
    simp only [itemZeroSigns, List.length_append, length_zeroSigns x y hx, length_itemZeroSigns xs ys hxs]

theorem length_entryZeroSigns : (xs ys : List (String × Value)) → sameEntries xs ys = true →
    (entryZeroSigns xs).length = (entryZeroSigns ys).length
  | [], [], _ => rfl
  | [], _ :: _, h => nomatch h
  | _ :: _, [], h => nomatch h
  | (_, x) :: xs, (_, y) :: ys, h => by
    obtain ⟨hkx, hxs⟩ := Bool.and_eq_true_iff.1 h
    obtain ⟨_, hx⟩ := Bool.and_eq_true_iff.1 hkx
    simp only [entryZeroSigns, List.length_append, length_zeroSigns x y hx, length_entryZeroSigns xs ys hxs]

end

mutual

/-- **Equal values with the same signs of zeros are identical.** -/
theorem eq_of_same : (v w : Value) → v.same w = true → v.zeroSigns = w.zeroSigns → v = w
  | v, w, h, hsigns => by
    cases v with
    | bool a =>
      cases w with
      | bool b => rw [eq_of_beq (h : (a == b) = true)]
      | _ => cases h
    | number x =>
      cases w with
      | number y => rw [Number.eq_of_same h hsigns]
      | _ => cases h
    | string a =>
      cases w with
      | string b => rw [eq_of_beq (h : (a == b) = true)]
      | _ => cases h
    | list xs =>
      cases w with
      | list ys => rw [items_eq_of_same xs ys h hsigns]
      | _ => cases h
    | map xs =>
      cases w with
      | map ys => rw [entries_eq_of_same xs ys h hsigns]
      | _ => cases h

theorem items_eq_of_same : (xs ys : List Value) → sameItems xs ys = true → itemZeroSigns xs = itemZeroSigns ys →
    xs = ys
  | [], [], _, _ => rfl
  | [], _ :: _, h, _ => nomatch h
  | _ :: _, [], h, _ => nomatch h
  | x :: xs, y :: ys, h, hsigns => by
    obtain ⟨hx, hxs⟩ := Bool.and_eq_true_iff.1 h
    obtain ⟨hfirst, hrest⟩ := List.append_inj hsigns (length_zeroSigns x y hx)
    rw [eq_of_same x y hx hfirst, items_eq_of_same xs ys hxs hrest]

theorem entries_eq_of_same : (xs ys : List (String × Value)) → sameEntries xs ys = true →
    entryZeroSigns xs = entryZeroSigns ys → xs = ys
  | [], [], _, _ => rfl
  | [], _ :: _, h, _ => nomatch h
  | _ :: _, [], h, _ => nomatch h
  | (k, x) :: xs, (l, y) :: ys, h, hsigns => by
    obtain ⟨hkx, hxs⟩ := Bool.and_eq_true_iff.1 h
    obtain ⟨hk, hx⟩ := Bool.and_eq_true_iff.1 hkx
    obtain ⟨hfirst, hrest⟩ := List.append_inj hsigns (length_zeroSigns x y hx)
    rw [eq_of_beq hk, eq_of_same x y hx hfirst, entries_eq_of_same xs ys hxs hrest]

end

mutual

/-- a finite value is equal to itself -/
theorem same_self : (v : Value) → v.notFinite? = none → v.same v = true
  | bool a, _ => beq_self_eq_true a
  | number x, h => Number.same_self (by simpa [notFinite?] using h)
  | string a, _ => beq_self_eq_true a
  | list items, h => sameItems_self items h
  | map entries, h => sameEntries_self entries h

theorem sameItems_self : (items : List Value) → itemNotFinite? items = none → sameItems items items = true
  | [], _ => rfl
  | v :: rest, h => by
    obtain ⟨hv, hrest⟩ := Option.or_eq_none_iff.1 h
    rw [sameItems, same_self v hv, sameItems_self rest hrest]
    rfl

theorem sameEntries_self : (entries : List (String × Value)) → entryNotFinite? entries = none →
    sameEntries entries entries = true
  | [], _ => rfl
  | (k, v) :: rest, h => by
    obtain ⟨hv, hrest⟩ := Option.or_eq_none_iff.1 h
    rw [sameEntries, same_self v hv, sameEntries_self rest hrest, beq_self_eq_true]
    rfl

end

end Value

namespace Slots

/-- the signs of the zeros in slots, in the order of the slots -/
def zeroSigns (slots : Slots) : List Bool :=
  slots.toValue.zeroSigns

theorem ext_toValue {a b : Slots} (h : a.toValue = b.toValue) : a = b := by
  cases a
  cases b
  obtain rfl := Value.map.inj h
  rfl

/-- equal slots are identical exactly if their zeros have the same signs -/
theorem eq_iff_zeroSigns {a b : Slots} (h : a.same b = true) : a = b ↔ a.zeroSigns = b.zeroSigns := by
  constructor
  · rintro rfl
    rfl
  · intro hsigns
    exact ext_toValue (Value.eq_of_same a.toValue b.toValue h hsigns)

end Slots

end BlockTemplates
