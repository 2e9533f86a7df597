/-
Slots that are read from JSON are finite.

The digits of a number give an integer of 64 bits, which is far below the greatest finite number, and a division by a
power of ten makes no number greater (`shrink_le`). A product beyond the finite numbers is refused. So every number that
is read is finite (`isFinite_of_read`), and with it every value (`reads_finite`), at whatever depth: `finite_ofJson`.
-/
import BlockTemplates.Json.Read
import BlockTemplates.Proofs.Json.Reread
import BlockTemplates.Proofs.Value.Finite

namespace BlockTemplates

/-- what succeeds in two parts succeeds in the first one -/
theorem exists_of_bind_eq_ok {ε α β : Type} {x : Except ε α} {f : α → Except ε β} {b : β} (h : x >>= f = .ok b) :
    ∃ a, x = .ok a ∧ f a = .ok b := by
  cases x with
  | error e => cases h
  | ok a => exact ⟨a, rfl, h⟩

/-! ## Steps -/

namespace Magnitude

/-- a greater number rounds to no lesser step -/
theorem RoundsTo.mono {x y : ℚ} {n m : ℕ} (hx : RoundsTo x n) (hy : RoundsTo y m) (h : y ≤ x) : m ≤ n := by
  rcases h.eq_or_lt with rfl | hlt
  · exact (hy.step_unique hx).le
  · refine hx.le_add (j := 0) hy ?_
    rw [Nat.cast_zero, zero_mul, add_zero]
    exact mul_lt_mul_of_pos_right hlt unitsPerOne_ratPos

/-- the value of a step rounds to the step -/
theorem roundsTo_toRat (n : ℕ) : RoundsTo (toRat n) n := by
  have hlt : (units n : ℚ) < units (n + 1) := by exact_mod_cast units_lt_succ n
  refine (roundsTo_of_between ?_ ?_).1 ?_ ?_ <;> rw [inUnits_toRat]
  · exact hlt
  · linarith
  · exact fun heq => absurd heq (by linarith)

/-- a division by one or more makes no step greater -/
theorem div_le {a b : ℕ} (hb : 1 ≤ toRat b) : div a b ≤ a := by
  have hpos : 0 < b := by
    refine Nat.pos_of_ne_zero fun hzero => ?_
    rw [hzero, toRat, units_zero, Nat.cast_zero, zero_div] at hb
    exact absurd hb (by norm_num)
  exact (roundsTo_toRat a).mono (div_roundsTo a hpos) (div_le_self (toRat_nonneg a) hb)

/-- integers of 64 bits are finite -/
theorem nearest_lt {n : ℕ} (h : n < 2 ^ 64) : nearest n 1 < finiteSteps := by
  have hrounds := nearest_roundsTo n Nat.one_pos
  rw [Nat.cast_one, div_one] at hrounds
  have hlt : (n : ℚ) < 2 ^ 64 := by exact_mod_cast h
  have := hrounds.add_lt hlt
  omega

end Magnitude

/-! ## Numbers -/

namespace Number

theorem isFinite_ofStep {step : ℕ} (h : step < Magnitude.finiteSteps) (negative : Bool) :
    (ofStep negative step).isFinite = true := by
  rw [ofStep, dif_pos h]
  rfl

theorem isFinite_ofInt {i : ℤ} (h : i.natAbs < 2 ^ 64) : (ofInt i).isFinite = true :=
  isFinite_ofStep (Magnitude.nearest_lt h) _

end Number

namespace Json

namespace Numeral

open Magnitude

theorem one_le_toRat_power (k : ℕ) : 1 ≤ toRat (power k) := by
  have hone := toRat_nearest (m := 1) (j := 0) Nat.one_pos (by decide)
  have hleft := nearest_roundsTo 1 Nat.one_pos
  have hright := nearest_roundsTo (Nat.pow 10 k) Nat.one_pos
  have hle : nearest 1 1 ≤ power k := by
    refine hright.mono hleft ?_
    have hpow : 1 ≤ Nat.pow 10 k := Nat.pow_pos (by decide)
    have hpow' : (1 : ℚ) ≤ (Nat.pow 10 k : ℕ) := by exact_mod_cast hpow
    rw [Nat.cast_one, div_one, div_one]
    exact hpow'
  calc (1 : ℚ) = toRat (nearest 1 1) := by simpa using hone.symm
    _ ≤ toRat (power k) := by
      refine div_le_div_of_nonneg_right ?_ unitsPerOne_ratPos.le
      exact_mod_cast units_strictMono.monotone hle

/-- a division by a power of ten makes no step greater -/
theorem shrink_le (step k : ℕ) : shrink step k ≤ step := by
  induction step, k using shrink.induct with
  | case1 step k h =>
    rw [shrink_of_le h]
    exact div_le (one_le_toRat_power k)
  | case2 k h =>
    rw [shrink, if_neg h, if_pos rfl]
  | case3 step k h hstep ih =>
    rw [shrink, if_neg h, if_neg hstep]
    exact ih.trans (div_le (one_le_toRat_power 308))

theorem scale?_lt {significand step : ℕ} {exponent : ℤ} (hword : significand < wordBound)
    (h : scale? significand exponent = some step) : step < finiteSteps := by
  have hnearest : nearest significand 1 < finiteSteps := nearest_lt hword
  have hzero : 0 < finiteSteps := by decide
  simp only [scale?] at h
  split_ifs at h with hneg hhigh hproduct hstep
  · rw [← Option.some.inj h]
    exact (shrink_le _ _).trans_lt hnearest
  · rw [← Option.some.inj h]
    exact hproduct
  · rw [← Option.some.inj h]
    exact hzero

/-- the digits that are taken give a number below the bound -/
theorem takeDigits_lt {bound n : ℕ} (hn : n < bound) (cs : List Char) : (takeDigits bound n cs).1 < bound := by
  induction cs generalizing n with
  | nil => exact hn
  | cons c cs ih =>
    rw [takeDigits]
    split
    · next h => exact ih (of_decide_eq_true (Bool.and_eq_true_iff.1 h).2)
    · exact hn

section

variable {negative : Bool} {significand : ℕ} {base : ℤ} {cs rest : List Char} {numeral : Numeral}
  (hword : significand < wordBound)

include hword

theorem isFinite_of_float? {e : ℤ} (h : float? negative significand e cs = .ok (numeral, rest)) :
    numeral.toNumber.isFinite = true := by
  unfold float? at h
  split at h
  · next hscale =>
    cases h
    exact Number.isFinite_ofStep (scale?_lt hword hscale) negative
  · cases h

theorem isFinite_of_exponent (h : exponent negative significand base cs = .ok (numeral, rest)) :
    numeral.toNumber.isFinite = true := by
  have hzero : 0 < finiteSteps := by decide
  unfold exponent at h
  split at h
  simp only at h
  split at h
  · cases h
  split at h
  · cases h
  split at h
  · split at h
    · cases h
    · cases h
      exact Number.isFinite_ofStep hzero negative
  · exact isFinite_of_float? hword h

theorem isFinite_of_afterDigits (h : afterDigits negative significand base cs = .ok (numeral, rest)) :
    numeral.toNumber.isFinite = true := by
  unfold afterDigits at h
  split at h
  · exact isFinite_of_exponent hword h
  · exact isFinite_of_exponent hword h
  · exact isFinite_of_float? hword h

theorem isFinite_of_fraction (h : fraction negative significand base cs = .ok (numeral, rest)) :
    numeral.toNumber.isFinite = true := by
  unfold fraction at h
  split at h
  · split at h <;> cases h
  · exact isFinite_of_afterDigits (takeDigits_lt hword cs) h

theorem isFinite_of_afterInteger (h : afterInteger negative significand cs = .ok (numeral, rest)) :
    numeral.toNumber.isFinite = true := by
  unfold afterInteger at h
  split at h
  · exact isFinite_of_fraction hword h
  · exact isFinite_of_exponent hword h
  · exact isFinite_of_exponent hword h
  · split_ifs at h
    · cases h
      exact Number.isFinite_ofInt (by rwa [Int.natAbs_natCast])
    · cases h
      exact Number.isFinite_ofInt (by rwa [Int.natAbs_neg, Int.natAbs_natCast])
    · cases h
      exact Number.isFinite_ofStep (nearest_lt hword) true

end

/-- every number that is read is finite -/
theorem isFinite_of_read {negative : Bool} {cs rest : List Char} {numeral : Numeral}
    (h : read negative cs = .ok (numeral, rest)) : numeral.toNumber.isFinite = true := by
  have hzero : 0 < wordBound := by decide
  have hword : ∀ digits, (takeDigits wordBound 0 digits).1 < wordBound := takeDigits_lt hzero
  unfold read at h
  split at h
  · cases h
  · split at h
    · cases h
    · exact isFinite_of_afterInteger hzero h
  · split at h
    · cases h
    · simp only at h
      split at h
      · exact isFinite_of_afterInteger (hword _) h
      · split at h
        · exact isFinite_of_fraction (hword _) h
        · exact isFinite_of_afterDigits (hword _) h

end Numeral

/-! ## Values -/

variable {fuel levels : ℕ} {cs rest : List Char}

/-- what a value is that is read: a word, a string, a number, or a list or a map of values that are read with less
fuel -/
inductive ReadAs (fuel : ℕ) : Value → Prop where
  | bool (b : Bool) : ReadAs fuel (.bool b)
  | string (s : String) : ReadAs fuel (.string s)
  | number {negative cs rest numeral} (h : Numeral.read negative cs = .ok (numeral, rest)) :
    ReadAs fuel (.number numeral.toNumber)
  | emptyList : ReadAs fuel (.list [])
  | list {levels cs rest items} (h : readItems fuel levels cs = .ok (some items, rest)) : ReadAs fuel (.list items)
  | emptyMap : ReadAs fuel (.map [])
  | map {levels cs rest pairs} (h : readMembers fuel levels cs = .ok (some pairs, rest)) :
    ReadAs fuel (.map (Entries.ofPairs pairs))

theorem readAs_of_readValue {v : Value} (h : readValue (fuel + 1) levels cs = .ok (some v, rest)) : ReadAs fuel v := by
  rw [readValue] at h
  split at h
  · cases h
  · obtain ⟨_, -, h⟩ := exists_of_bind_eq_ok h
    cases h
  · obtain ⟨_, -, h⟩ := exists_of_bind_eq_ok h
    cases h
    exact .bool true
  · obtain ⟨_, -, h⟩ := exists_of_bind_eq_ok h
    cases h
    exact .bool false
  · obtain ⟨⟨s, _⟩, -, h⟩ := exists_of_bind_eq_ok h
    cases h
    exact .string _
  · obtain ⟨⟨numeral, _⟩, hread, h⟩ := exists_of_bind_eq_ok h
    cases h
    exact .number hread
  · split at h
    · cases h
    · split at h
      · cases h
        exact .emptyList
      · cases h
      · obtain ⟨⟨items, _⟩, hitems, h⟩ := exists_of_bind_eq_ok h
        rcases items with _ | items <;> cases h
        exact .list hitems
  · split at h
    · cases h
    · split at h
      · cases h
        exact .emptyMap
      · cases h
      · obtain ⟨⟨pairs, _⟩, hpairs, h⟩ := exists_of_bind_eq_ok h
        rcases pairs with _ | pairs <;> cases h
        exact .map hpairs
      · cases h
  · split at h
    · obtain ⟨⟨numeral, _⟩, hread, h⟩ := exists_of_bind_eq_ok h
      cases h
      exact .number hread
    · cases h

/-- the items of a list are values that are read with less fuel -/
theorem readItems_eq_cons {items : List Value} (h : readItems (fuel + 1) levels cs = .ok (some items, rest)) :
    ∃ item others, items = item :: others ∧ (∃ behind, readValue fuel levels cs = .ok (some item, behind)) ∧
      (others = [] ∨ ∃ behind, readItems fuel levels behind = .ok (some others, rest)) := by
  rw [readItems] at h
  obtain ⟨⟨item, behind⟩, hitem, h⟩ := exists_of_bind_eq_ok h
  simp only at h
  split at h
  · rcases item with _ | item <;> cases h
    exact ⟨item, [], rfl, ⟨behind, hitem⟩, .inl rfl⟩
  · cases h
  · split at h
    · cases h
    · cases h
    · obtain ⟨⟨others, _⟩, hothers, h⟩ := exists_of_bind_eq_ok h
      rcases item with _ | item <;> rcases others with _ | others <;> cases h
      exact ⟨item, others, rfl, ⟨behind, hitem⟩, .inr ⟨_, hothers⟩⟩
  · cases h

/-- and so are those of the members of an object -/
theorem readMembers_eq_cons {members : List (String × Value)}
    (h : readMembers (fuel + 1) levels cs = .ok (some members, rest)) :
    ∃ key value others, members = (key, value) :: others ∧
      (∃ front behind, readValue fuel levels front = .ok (some value, behind)) ∧
      (others = [] ∨ ∃ behind, readMembers fuel levels behind = .ok (some others, rest)) := by
  rw [readMembers] at h
  obtain ⟨⟨key, _⟩, -, h⟩ := exists_of_bind_eq_ok h
  obtain ⟨front, -, h⟩ := exists_of_bind_eq_ok h
  obtain ⟨⟨value, behind⟩, hvalue, h⟩ := exists_of_bind_eq_ok h
  simp only at h
  split at h
  · rcases value with _ | value <;> cases h
    exact ⟨_, value, [], rfl, ⟨front, behind, hvalue⟩, .inl rfl⟩
  · cases h
  · split at h
    · obtain ⟨⟨others, _⟩, hothers, h⟩ := exists_of_bind_eq_ok h
      rcases value with _ | value <;> rcases others with _ | others <;> cases h
      exact ⟨_, value, others, rfl, ⟨front, behind, hvalue⟩, .inr ⟨_, hothers⟩⟩
    · cases h
    · cases h
    · cases h
  · cases h

/-- every value that is read is finite, and so are those in lists and objects -/
theorem reads_finite (fuel : ℕ) :
    (∀ {levels cs v rest}, readValue fuel levels cs = .ok (some v, rest) → v.isFinite = true) ∧
      (∀ {levels cs items rest}, readItems fuel levels cs = .ok (some items, rest) →
        ∀ v ∈ items, v.isFinite = true) ∧
      ∀ {levels cs members rest}, readMembers fuel levels cs = .ok (some members, rest) →
        ∀ e ∈ members, e.2.isFinite = true := by
  induction fuel with
  | zero => exact ⟨nofun, nofun, nofun⟩
  | succ fuel ih =>
    obtain ⟨hvalue, hitems, hmembers⟩ := ih
    refine ⟨fun h => ?_, fun h => ?_, fun h => ?_⟩
    · cases readAs_of_readValue h with
      | bool b => rfl
      | string s => rfl
      | number hread => exact Value.isFinite_number_iff.2 (Numeral.isFinite_of_read hread)
      | emptyList => rfl
      | list hread => exact Value.isFinite_list_iff.2 (hitems hread)
      | emptyMap => rfl
      | map hread => exact Value.isFinite_map_ofPairs (hmembers hread)
    · obtain ⟨item, others, rfl, ⟨_, hitem⟩, rfl | ⟨_, hothers⟩⟩ := readItems_eq_cons h
      · exact List.forall_mem_singleton.2 (hvalue hitem)
      · exact List.forall_mem_cons.2 ⟨hvalue hitem, hitems hothers⟩
    · obtain ⟨key, value, others, rfl, ⟨_, _, hmember⟩, rfl | ⟨_, hothers⟩⟩ := readMembers_eq_cons h
      · exact List.forall_mem_singleton.2 (hvalue hmember)
      · exact List.forall_mem_cons.2 ⟨hvalue hmember, hmembers hothers⟩

/-! ## Slots -/

theorem finite_of_readSlots {slots read : Slots} (hslots : slots.Finite)
    (h : readSlots fuel slots cs = .ok (read, rest)) : read.Finite := by
  induction fuel generalizing slots cs with
  | zero => cases h
  | succ fuel ih =>
    rw [readSlots] at h
    obtain ⟨⟨name, _⟩, -, h⟩ := exists_of_bind_eq_ok h
    obtain ⟨front, -, h⟩ := exists_of_bind_eq_ok h
    obtain ⟨⟨value, _⟩, hvalue, h⟩ := exists_of_bind_eq_ok h
    rcases value with _ | value
    · cases h
    have hnext := hslots.insert ((reads_finite _).1 hvalue) (String.ofList name)
    simp only at h
    split at h
    · cases h
      exact hnext
    · cases h
    · split at h
      · exact ih hnext h
      · cases h
      · cases h
      · cases h
    · cases h

theorem finite_of_readDocument {slots : Slots} (h : readDocument cs = .ok slots) : slots.Finite := by
  unfold readDocument at h
  split at h
  · simp only at h
    split at h
    all_goals
      obtain ⟨⟨read, _⟩, hread, h⟩ := exists_of_bind_eq_ok h
      simp only at h
      split at h <;> cases h
    · cases hread
      exact Slots.finite_empty
    · cases hread
    · exact finite_of_readSlots Slots.finite_empty hread
    · cases hread
  · cases h

end Json

/-- slots that are read from JSON are finite -/
theorem Slots.finite_ofJson {text : String} {slots : Slots} (h : ofJson text = .ok slots) : slots.Finite := by
  unfold ofJson at h
  rcases hread : Json.readDocument text.toList with e | read
  · rw [hread] at h
    cases h
  · rw [hread] at h
    cases h
    exact Json.finite_of_readDocument hread

end BlockTemplates
