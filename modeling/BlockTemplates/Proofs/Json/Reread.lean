/-
The number that is read from the canonical text of a number.

`Number.reread` is what the reader makes of the decimal that the text of a number spells out. Every finite number is read
again as a finite number of the same sign, three steps away at most (`near_reread`), and as itself if its digits and its
power of ten are not rounded (`reread_of_readsExactly`).
-/
import BlockTemplates.Json.Text
import BlockTemplates.Proofs.Json.Scaling

namespace BlockTemplates

namespace Number

open Magnitude Json.Numeral

/-- the number that is read from the canonical text of a number -/
def reread : Number → Number
  | finite negative step =>
    match scale? (printed step).coefficient (printed step).exponent with
    | some m => ofStep negative m
    | none => infinite negative
  | x => x

end Number

namespace Magnitude

open Json.Numeral

/-- numbers below 2^64 are not close to the greatest step -/
theorem RoundsTo.add_lt {x : ℚ} {n : ℕ} (h : RoundsTo x n) (hx : x < 2 ^ 64) : n + 3 < finiteSteps := by
  by_contra hle
  have hlimit : 2 ^ 64 * unitsPerOne ≤ units (finiteSteps - 4) := by decide +kernel
  have hstep : units (finiteSteps - 4) ≤ units (n - 1) := units_strictMono.monotone (by omega)
  have hunits : (2 ^ 64 * unitsPerOne : ℚ) ≤ units (n - 1) := by exact_mod_cast hlimit.trans hstep
  have hprev : (units (n - 1) : ℚ) ≤ units n := by exact_mod_cast units_strictMono.monotone (Nat.sub_le n 1)
  have hlow := h.le_inUnits
  have hhigh : inUnits x < 2 ^ 64 * unitsPerOne := mul_lt_mul_of_pos_right hx unitsPerOne_ratPos
  linarith

/-- no product of the reader is beyond the greatest step, not even those of the greatest steps -/
theorem product_lt {n : ℕ} (hpos : 0 < n) (hn : n < finiteSteps) (he : 0 ≤ (printed n).exponent) :
    mul (nearest (printed n).coefficient 1) (power (printed n).exponent.toNat) < finiteSteps := by
  by_cases hlast : n + 2 < finiteSteps
  · have hrounds := printed_roundsTo n
    rw [Decimal.value, ← Int.toNat_of_nonneg he, zpow_natCast] at hrounds
    have hnear := mul_near (coefficient_pos hpos (printed_roundsTo n)) hrounds
    omega
  · obtain rfl | rfl : n = finiteSteps - 1 ∨ n = finiteSteps - 2 := by omega
    · decide +kernel
    · decide +kernel

theorem printed_zero : printed 0 = ⟨0, -1⟩ := by
  decide +kernel

theorem scale?_printed_zero : scale? (printed 0).coefficient (printed 0).exponent = some 0 := by
  have hzero : div (nearest 0 1) (power 1) = 0 := by decide +kernel
  rw [printed_zero, scale?_of_neg (by decide), shrink_of_le (by decide)]
  exact congrArg some hzero

/-- what is read from the text of a finite step -/
theorem scale?_printed {n : ℕ} (hn : n < finiteSteps) :
    ∃ m, scale? (printed n).coefficient (printed n).exponent = some m ∧ m < finiteSteps ∧ m ≤ n + 3 ∧ n ≤ m + 3 := by
  rcases Nat.eq_zero_or_pos n with rfl | hpos
  · exact ⟨0, scale?_printed_zero, by decide, by decide, by decide⟩
  obtain ⟨hword, hlow, hhigh⟩ := printed_bounds hn
  have hrounds := printed_roundsTo n
  have hcoefficient := coefficient_pos hpos hrounds
  obtain ⟨m, hm, hle, hge⟩ := scale?_near hcoefficient hrounds (by omega) hhigh (product_lt hpos hn)
  refine ⟨m, hm, ?_, hle, hge⟩
  by_cases he : 0 ≤ (printed n).exponent
  · have hproduct := product_lt hpos hn he
    rw [scale?_of_nonneg he hhigh hproduct] at hm
    exact Option.some.inj hm ▸ hproduct
  · have hvalue : (printed n).value < 2 ^ 64 := by
      have hword' : ((printed n).coefficient : ℚ) < 2 ^ 64 := by exact_mod_cast hword
      have hpow : (10 : ℚ) ^ (printed n).exponent ≤ 1 := zpow_le_one_of_nonpos₀ (by norm_num) (by omega)
      exact (mul_le_of_le_one_right (Nat.cast_nonneg _) hpow).trans_lt hword'
    have := hrounds.add_lt hvalue
    omega

end Magnitude

namespace Number

open Magnitude Json.Numeral

theorem reread_eq {negative : Bool} {step : Fin finiteSteps} {m : ℕ} (hm : m < finiteSteps)
    (h : scale? (printed step).coefficient (printed step).exponent = some m) :
    (finite negative step).reread = finite negative ⟨m, hm⟩ := by
  have hread : (finite negative step).reread =
      match scale? (printed step).coefficient (printed step).exponent with
      | some m => ofStep negative m
      | none => infinite negative := rfl
  rw [hread, h]
  exact dif_pos hm

end Number

/-! ## The text of a number -/

namespace Json.Numeral

open Magnitude

theorem read_printed (negative : Bool) {n : ℕ} (hn : n < finiteSteps) {r : List Char} (hr : Delimits r) :
    read negative ((shortest .toEven n).chars Layout.canonical ++ r) =
      float? negative (printed n).coefficient (printed n).exponent r := by
  rcases Nat.eq_zero_or_pos n with rfl | hpos
  · have htext : (shortest .toEven 0).chars Layout.canonical = ['0'] ++ '.' :: ['0'] := by decide +kernel
    have hdigit : Decimal.AllDigits ['0'] := Decimal.allDigits_zero
    rw [htext, printed_zero]
    calc read negative (['0'] ++ '.' :: (['0'] ++ r)) = afterDigits negative 0 (-1) r :=
          read_point negative hdigit (by decide) (.inl rfl) hdigit (by decide) (by decide) hr.startsWithDigit
      _ = float? negative 0 (-1) r := float_of_delimits negative hr
  · have hrounds := shortest_roundsTo .toEven n
    have hlead := leadExponent_le hn
    have hlow := (shortest_bounds .toEven n).2
    have hdigits := (shortest .toEven n).length_digits_pos
    have hexponent : (shortest .toEven n).leadExponent.natAbs < exponentBound := by
      have hbound : 1000 < exponentBound := by decide
      rw [Decimal.leadExponent] at hlead ⊢
      omega
    exact read_chars negative (coefficient_pos hpos hrounds) (printed_bounds hn).1 hexponent hr

/-- the reader recovers what `Number.reread` says -/
theorem read_number (negative : Bool) (step : Fin finiteSteps) {r : List Char} (hr : Delimits r) :
    ∃ numeral, read negative ((shortest .toEven step).chars Layout.canonical ++ r) = .ok (numeral, r) ∧
      numeral.toNumber = (Number.finite negative step).reread := by
  obtain ⟨m, hscale, hm, -⟩ := scale?_printed step.isLt
  refine ⟨.float (Number.ofStep negative m), ?_, ?_⟩
  · rw [read_printed negative step.isLt hr, float?, hscale]
  · rw [Number.reread_eq hm hscale, toNumber, Number.ofStep, dif_pos hm]

end Json.Numeral

end BlockTemplates
