/-
How far a number is from the one that is read from its text.

The reader rounds the digits, rounds the power of ten, and rounds their product or quotient; below 10^-308 it divides
twice. Each rounding changes a value by a factor of 1 + 2^-53 at most (`RoundsTo.within`), and the distance of the steps
is more than 2^-53 of them (`RoundsTo.inUnits_le_gap`). So the step that is read is at most three steps away from the one
that was written (`scale?_near`), and it is the same if the digits and the power of ten are not rounded (`scale?_exact`).
-/
import BlockTemplates.Proofs.Json.Numeral

namespace BlockTemplates

namespace Json.Numeral

open Magnitude

/-! ## Powers of ten -/

theorem power_within (k : ℕ) : Within (1 + roundoff) (10 ^ k) (toRat (power k)) := by
  have hwithin := within_nearest (Nat.pow_pos (by decide) : 0 < Nat.pow 10 k)
  have hpow : (10 ^ k : ℚ) = (Nat.pow 10 k : ℕ) := by simp
  rw [hpow]
  exact hwithin

theorem toRat_power_pos (k : ℕ) : 0 < toRat (power k) := by
  have hpow : (0 : ℚ) < 10 ^ k := by positivity
  have hroundoff := roundoff_pos
  have hge := (power_within k).le
  exact pos_of_mul_pos_left (hpow.trans_le hge) (by linarith)

theorem power_pos (k : ℕ) : 0 < power k := by
  refine Nat.pos_of_ne_zero fun hzero => ?_
  have hpos := toRat_power_pos k
  rw [hzero, toRat, units_zero, Nat.cast_zero, zero_div] at hpos
  exact lt_irrefl _ hpos

/-- powers of ten up to 10^22 have 53 bits besides their powers of two -/
theorem power_exact {k : ℕ} (hk : k ≤ 22) : toRat (power k) = 10 ^ k := by
  have hfive : 5 ^ k ≤ 2 * binade := (Nat.pow_le_pow_right (by decide) hk).trans (by decide)
  have hten : Nat.pow 10 k = 5 ^ k * 2 ^ k := (Nat.mul_pow 5 2 k : (5 * 2) ^ k = _)
  rw [power, hten, toRat_nearest (Nat.pow_pos (by decide)) hfive]
  push_cast
  rw [← mul_pow]
  norm_num

/-- an eighth of the usual error, in whole numbers -/
theorem within_eighth {k n : ℕ} (hle : 10 ^ k * unitsPerOne * (16 * binade) ≤ units n * (16 * binade + 1))
    (hge : units n * (16 * binade) ≤ 10 ^ k * unitsPerOne * (16 * binade + 1)) :
    Within (1 + roundoff / 8) (10 ^ k) (toRat n) := by
  have hb := binade_ratPos
  have hone := unitsPerOne_ratPos
  have hle' : (10 ^ k * unitsPerOne * (16 * binade) : ℚ) ≤ units n * (16 * binade + 1) := by exact_mod_cast hle
  have hge' : (units n * (16 * binade) : ℚ) ≤ 10 ^ k * unitsPerOne * (16 * binade + 1) := by exact_mod_cast hge
  have hfactor : 1 + roundoff / 8 = (16 * binade + 1) / (16 * binade) := by
    rw [roundoff]
    field_simp
    ring
  rw [hfactor]
  constructor
  · rw [toRat, div_mul_div_comm, le_div_iff₀ (by positivity), ← mul_assoc]
    exact hle'
  · rw [toRat, mul_div_assoc', div_le_div_iff₀ hone (by positivity), mul_right_comm]
    exact hge'

/-- the greatest finite power is rounded by less than an eighth of what a power may be rounded by -/
theorem power_308_within : Within (1 + roundoff / 8) (10 ^ 308) (toRat (power 308)) :=
  within_eighth (by decide +kernel) (by decide +kernel)

/-! ## Distances of the steps -/

/-- an error of a factor of `t` and `s` units is less than `j` gaps -/
theorem le_add_of_error {x y t s : ℚ} {n m j : ℕ} (hx : RoundsTo x n) (hy : RoundsTo y m) (ht : 1 ≤ t) (hs : 0 ≤ s)
    (hj : (2 * binade - 1 / 2) * (t - 1) + s < j) (h : inUnits y ≤ inUnits x * t + s) : m ≤ n + j := by
  have hgap : (1 : ℚ) ≤ gap n := by exact_mod_cast gap_pos n
  refine hx.le_add hy ?_
  calc inUnits y ≤ inUnits x + (inUnits x * (t - 1) + s) := by linarith
    _ ≤ inUnits x + ((2 * binade - 1 / 2) * gap n * (t - 1) + s * gap n) := by
      have hproduct := mul_le_mul_of_nonneg_right hx.inUnits_le_gap (sub_nonneg.2 ht)
      have hslack := le_mul_of_one_le_right hs hgap
      linarith
    _ = inUnits x + ((2 * binade - 1 / 2) * (t - 1) + s) * gap n := by ring
    _ < inUnits x + j * gap n := by
      have := mul_lt_mul_of_pos_right hj (by linarith : (0 : ℚ) < gap n)
      linarith

/-- two roundings of the parts of a number move it by two steps at most -/
theorem near_of_within {x y : ℚ} {n m : ℕ} (hx : RoundsTo x n) (hy : RoundsTo y m)
    (h : Within ((1 + roundoff) * (1 + roundoff)) x y) : m ≤ n + 2 ∧ n ≤ m + 2 := by
  have hroundoff := roundoff_pos
  have ht : 1 ≤ (1 + roundoff) * (1 + roundoff) := by nlinarith
  have hj : (2 * binade - 1 / 2) * ((1 + roundoff) * (1 + roundoff) - 1) + 0 < ((2 : ℕ) : ℚ) := by
    norm_num [roundoff, binade]
  constructor
  · refine le_add_of_error hx hy ht le_rfl hj ?_
    rw [add_zero]
    exact inUnits_le_mul_iff.2 h.ge
  · refine le_add_of_error hy hx ht le_rfl hj ?_
    rw [add_zero]
    exact inUnits_le_mul_iff.2 h.le

/-- a division by a power of ten shrinks an error of one unit to a tenth of a unit -/
theorem div_le_of_error {x y t c : ℚ} {j : ℕ} (hj : 0 < j) (hunit : c ≤ 1) (h : x ≤ y * t + c) :
    x / 10 ^ j ≤ y / 10 ^ j * t + 1 / 10 := by
  have hten : (10 : ℚ) ≤ 10 ^ j := le_self_pow₀ (by norm_num) (Nat.ne_of_gt hj)
  have hpow : (0 : ℚ) < 10 ^ j := by positivity
  have hshrink : c / 10 ^ j ≤ 1 / 10 := div_le_div₀ zero_le_one hunit (by norm_num) hten
  calc x / 10 ^ j ≤ (y * t + c) / 10 ^ j := div_le_div_of_nonneg_right h hpow.le
    _ = y / 10 ^ j * t + c / 10 ^ j := by ring
    _ ≤ y / 10 ^ j * t + 1 / 10 := by linarith

/-! ## Products and quotients -/

section

variable {significand n : ℕ} (hpos : 0 < significand)

include hpos

theorem mul_near {k : ℕ} (h : RoundsTo (significand * 10 ^ k) n) :
    mul (nearest significand 1) (power k) ≤ n + 2 ∧ n ≤ mul (nearest significand 1) (power k) + 2 := by
  have hroundoff := roundoff_pos
  have hwithin := (within_nearest hpos).mul (Nat.cast_nonneg _) (toRat_nonneg _) (by positivity) (toRat_nonneg _)
    (by positivity) (power_within k)
  exact near_of_within h (mul_roundsTo _ _) hwithin

theorem quotient_within {t : ℚ} {k : ℕ} (hk : Within t (10 ^ k) (toRat (power k))) :
    Within ((1 + roundoff) * t) (significand / 10 ^ k) (toRat (nearest significand 1) / toRat (power k)) := by
  have hroundoff := roundoff_pos
  rw [div_eq_mul_inv, div_eq_mul_inv]
  exact (within_nearest hpos).mul (Nat.cast_nonneg _) (toRat_nonneg _) (by positivity)
    (inv_nonneg.2 (toRat_nonneg _)) (by positivity) (hk.inv (by positivity) (toRat_power_pos k))

theorem div_near {k : ℕ} (h : RoundsTo (significand / 10 ^ k) n) :
    div (nearest significand 1) (power k) ≤ n + 2 ∧ n ≤ div (nearest significand 1) (power k) + 2 := by
  exact near_of_within h (div_roundsTo _ (power_pos k)) (quotient_within hpos (power_within k))

/-- below the least power of ten there is a second division, by a power that is not rounded; it shrinks the error of
the first one, which may be half a unit -/
theorem div_div_near {j : ℕ} (hj : 0 < j) (hexact : j ≤ 22) (h : RoundsTo (significand / 10 ^ 308 / 10 ^ j) n) :
    div (div (nearest significand 1) (power 308)) (power j) ≤ n + 3 ∧
      n ≤ div (div (nearest significand 1) (power 308)) (power j) + 3 := by
  have hroundoff := roundoff_pos
  obtain ⟨factor, hfactor⟩ : ∃ t : ℚ, t = (1 + roundoff) * (1 + roundoff / 8) := ⟨_, rfl⟩
  have hone : 1 ≤ factor := by rw [hfactor]; norm_num [roundoff, binade]
  have htwo : factor ≤ 2 := by rw [hfactor]; norm_num [roundoff, binade]
  have ht : 1 ≤ factor * (1 + roundoff) := one_le_mul_of_one_le_of_one_le hone (by linarith)
  have hthree : (2 * binade - 1 / 2) * (factor * (1 + roundoff) - 1) + 1 / 10 < ((3 : ℕ) : ℚ) := by
    rw [hfactor]
    norm_num [roundoff, binade]
  -- in units, the first quotient before and after its rounding
  have hfirst := quotient_within hpos power_308_within
  rw [← hfactor] at hfirst
  obtain ⟨hdown, hup⟩ := (div_roundsTo (nearest significand 1) (power_pos 308)).error_of_within
    (div_nonneg (toRat_nonneg _) (toRat_nonneg _)) (by linarith) hfirst
  set step := div (nearest significand 1) (power 308)
  have hsecond := div_roundsTo step (power_pos j)
  rw [power_exact hexact] at hsecond
  have hx : inUnits (significand / 10 ^ 308 / 10 ^ j) = inUnits (significand / 10 ^ 308) / 10 ^ j :=
    div_mul_eq_mul_div _ _ _
  have hy : inUnits (toRat step / 10 ^ j) = units step / 10 ^ j := by
    rw [← inUnits_toRat step]
    exact div_mul_eq_mul_div _ _ _
  constructor
  · refine le_add_of_error h hsecond ht (by norm_num) hthree ?_
    rw [hx, hy]
    exact div_le_of_error hj (by norm_num) hup
  · refine le_add_of_error hsecond h ht (by norm_num) hthree ?_
    rw [hx, hy]
    exact div_le_of_error hj (by linarith) hdown

end

/-! ## What is read -/

theorem nearest_pos {c : ℕ} (hc : 0 < c) : 0 < nearest c 1 := by
  refine Nat.pos_of_ne_zero fun hzero => ?_
  have hle := (within_nearest hc).le
  rw [hzero, toRat, units_zero, Nat.cast_zero, zero_div, zero_mul] at hle
  exact absurd hle (not_le.2 (by exact_mod_cast hc))

theorem shrink_of_le {step k : ℕ} (h : k ≤ 308) : shrink step k = div step (power k) := by
  rw [shrink, if_pos h]

theorem shrink_of_lt {step j : ℕ} (hstep : 0 < step) (hj : 0 < j) (h : j ≤ 308) :
    shrink step (308 + j) = div (div step (power 308)) (power j) := by
  rw [shrink, if_neg (by omega), if_neg (Nat.ne_of_gt hstep), Nat.add_sub_cancel_left, shrink_of_le h]

theorem scale?_of_nonneg {significand : ℕ} {e : ℤ} (h : 0 ≤ e) (hfinite : e ≤ 308)
    (hproduct : mul (nearest significand 1) (power e.toNat) < finiteSteps) :
    scale? significand e = some (mul (nearest significand 1) (power e.toNat)) := by
  simp only [scale?, if_neg (not_lt.2 h), if_pos hfinite, if_pos hproduct]

theorem scale?_of_neg {significand : ℕ} {e : ℤ} (h : e < 0) :
    scale? significand e = some (shrink (nearest significand 1) e.natAbs) := by
  simp only [scale?, if_pos h]

variable {d : Decimal} {n : ℕ} (hpos : 0 < d.coefficient) (hrounds : RoundsTo d.value n)

include hpos hrounds

/-- the step that is read is at most three steps away from the one that the decimal is rounded to -/
theorem scale?_near (hlow : -330 ≤ d.exponent) (hhigh : d.exponent ≤ 308)
    (hproduct : 0 ≤ d.exponent → mul (nearest d.coefficient 1) (power d.exponent.toNat) < finiteSteps) :
    ∃ m, scale? d.coefficient d.exponent = some m ∧ m ≤ n + 3 ∧ n ≤ m + 3 := by
  obtain ⟨significand, e⟩ := d
  dsimp only at hpos hlow hhigh hproduct ⊢
  rw [Decimal.value] at hrounds
  by_cases h : 0 ≤ e
  · obtain ⟨k, rfl⟩ := Int.eq_ofNat_of_zero_le h
    rw [zpow_natCast] at hrounds
    obtain ⟨hle, hge⟩ := mul_near hpos hrounds
    exact ⟨_, scale?_of_nonneg h hhigh (hproduct h), by rw [Int.toNat_natCast]; omega, by rw [Int.toNat_natCast]; omega⟩
  · obtain ⟨k, rfl⟩ : ∃ k : ℕ, e = -k := ⟨e.natAbs, by omega⟩
    rw [zpow_neg, zpow_natCast, ← div_eq_mul_inv] at hrounds
    refine ⟨_, scale?_of_neg (not_le.1 h), ?_⟩
    rw [Int.natAbs_neg, Int.natAbs_natCast]
    by_cases hk : k ≤ 308
    · obtain ⟨hle, hge⟩ := div_near hpos hrounds
      rw [shrink_of_le hk]
      omega
    · obtain ⟨j, rfl⟩ := Nat.exists_eq_add_of_le (Nat.le_of_not_le hk)
      rw [pow_add, ← div_div] at hrounds
      rw [shrink_of_lt (nearest_pos hpos) (by omega) (by omega)]
      exact div_div_near hpos (by omega) (by omega) hrounds

end Json.Numeral

end BlockTemplates
