/-
Magnitudes of binary64 numbers, counted from zero.

The finite magnitudes of the format form one ascending sequence: step 0 is zero, step 1 the least subnormal, and the
step after the last finite one stands for infinity. `units n` is the value of step `n` in units of 2^-1074, and
`nearest` is the step closest to a quotient; of two equally close steps it takes the even one.

`floor` inverts `units`: `units_floor_le` and `lt_units_floor_succ` say between which two steps a value lies.
-/
namespace BlockTemplates.Magnitude

/-- how many steps lie between two powers of two, where the leading bit is not stored -/
def binade : Nat :=
  Nat.pow 2 52

/-- how many magnitudes are finite; this step itself is infinity -/
def finiteSteps : Nat :=
  2047 * binade

/-- the value of a step, in units of 2^-1074 -/
def units (step : Nat) : Nat :=
  if step < binade then step else (binade + step % binade) * Nat.pow 2 (step / binade - 1)

/-- the last step whose value is at most `value` units -/
def floor (value : Nat) : Nat :=
  if value < binade then value else (value.log2 - 52) * binade + value / Nat.pow 2 (value.log2 - 52)

/-- the step closest to `numerator / denominator`, the even one of two -/
def nearest (numerator denominator : Nat) : Nat :=
  let scaled := numerator * Nat.pow 2 1074
  let step := floor (scaled / denominator)
  let middle := (units step + units (step + 1)) * denominator
  if 2 * scaled < middle then step
  else if middle < 2 * scaled then step + 1
  else if step % 2 = 0 then step
  else step + 1

/-- `nearest`, for `coefficient * 10 ^ exponent`; far outside the range of the format the power is not built -/
def nearestDecimal (coefficient : Nat) (exponent : Int) : Nat :=
  if coefficient = 0 then 0
  else if 330 < (coefficient.log2 : Int) * 3 / 10 + exponent then finiteSteps
  else if (coefficient.log2 + 1 : Int) * 31 / 100 + 1 + exponent < -330 then 0
  else nearest (coefficient * Nat.pow 10 exponent.toNat) (Nat.pow 10 (-exponent).toNat)

/-- the step closest to the product of two steps -/
def mul (a b : Nat) : Nat :=
  nearest (units a * units b) (Nat.pow 2 2148)

/-- the step closest to the quotient of two steps -/
def div (a b : Nat) : Nat :=
  nearest (units a) (units b)

theorem binade_pos : 0 < binade := by decide

theorem pow_succ_eq (k : Nat) : Nat.pow 2 (k + 1) = Nat.pow 2 k + Nat.pow 2 k :=
  (Nat.mul_two (Nat.pow 2 k) :)

/-- the steps of one binade have one distance -/
theorem units_of_lt_binade {offset : Nat} (scale : Nat) (h : offset < binade) :
    units ((scale + 1) * binade + offset) = (binade + offset) * Nat.pow 2 scale := by
  have hdiv : ((scale + 1) * binade + offset) / binade = scale + 1 := by
    rw [Nat.add_comm, Nat.add_mul_div_right _ _ binade_pos, Nat.div_eq_of_lt h, Nat.zero_add]
  have hmod : ((scale + 1) * binade + offset) % binade = offset := by
    rw [Nat.add_comm, Nat.add_mul_mod_self_right, Nat.mod_eq_of_lt h]
  have hge : ¬(scale + 1) * binade + offset < binade := by
    rw [Nat.add_mul, Nat.one_mul]
    omega
  rw [units, if_neg hge, hdiv, hmod, Nat.add_sub_cancel]

/-- so has the first step of the next one from the last of these -/
theorem units_of_le_binade {offset : Nat} (scale : Nat) (h : offset ≤ binade) :
    units ((scale + 1) * binade + offset) = (binade + offset) * Nat.pow 2 scale := by
  cases Nat.lt_or_eq_of_le h with
  | inl hlt => exact units_of_lt_binade scale hlt
  | inr heq =>
    have hnext := units_of_lt_binade (scale + 1) binade_pos
    simp only [Nat.add_zero, pow_succ_eq, Nat.mul_add] at hnext
    rw [heq, ← Nat.succ_mul, hnext, Nat.add_mul]

/-- a value that is not below the first binade is its scale times a number of one binade -/
theorem value_between {value : Nat} (h : ¬value < binade) :
    ∃ scale offset, offset < binade ∧ floor value = (scale + 1) * binade + offset ∧
      (binade + offset) * Nat.pow 2 scale ≤ value ∧ value < (binade + (offset + 1)) * Nat.pow 2 scale := by
  have hzero : value ≠ 0 := fun e => h (e ▸ binade_pos)
  have hlow : Nat.pow 2 value.log2 ≤ value := Nat.log2_self_le hzero
  have hhigh : value < Nat.pow 2 (value.log2 + 1) := Nat.lt_log2_self
  have hlog : 52 ≤ value.log2 := by
    apply Nat.le_of_not_lt
    intro hlt
    have : Nat.pow 2 (value.log2 + 1) ≤ binade := Nat.pow_le_pow_right (by decide) hlt
    omega
  obtain ⟨scale, hscale⟩ := Nat.exists_eq_add_of_le hlog
  have hsplit : ∀ k, Nat.pow 2 (52 + k) = binade * Nat.pow 2 k := fun k => Nat.pow_add 2 52 k
  have hpos : 0 < Nat.pow 2 scale := Nat.pow_pos (by decide)
  have hsub : value.log2 - 52 = scale := by omega
  have hfirst : binade ≤ value / Nat.pow 2 scale := by
    rw [Nat.le_div_iff_mul_le hpos, ← hsplit, ← hscale]
    exact hlow
  have hlast : value / Nat.pow 2 scale < binade + binade := by
    rw [Nat.div_lt_iff_lt_mul hpos, Nat.add_mul, ← hsplit, ← hscale, ← pow_succ_eq]
    exact hhigh
  obtain ⟨offset, hoffset⟩ := Nat.exists_eq_add_of_le hfirst
  refine ⟨scale, offset, by omega, ?_, ?_, ?_⟩
  · rw [floor, if_neg h, hsub, hoffset, Nat.add_mul]
    omega
  · rw [← hoffset]
    exact Nat.div_mul_le_self value _
  · rw [← Nat.add_assoc, ← hoffset]
    exact (Nat.div_lt_iff_lt_mul hpos).1 (Nat.lt_succ_self _)

/-- the floor of a value is not above it -/
theorem units_floor_le (value : Nat) : units (floor value) ≤ value := by
  by_cases h : value < binade
  · have hself : units (floor value) = value := by rw [floor, if_pos h, units, if_pos h]
    exact Nat.le_of_eq hself
  · obtain ⟨scale, offset, hoffset, hfloor, hle, -⟩ := value_between h
    rw [hfloor, units_of_lt_binade scale hoffset]
    exact hle

/-- the step behind the floor of a value is above it -/
theorem lt_units_floor_succ (value : Nat) : value < units (floor value + 1) := by
  by_cases h : value < binade
  · have hsucc : units (value + 1) = value + 1 := by
      by_cases hlast : value + 1 < binade
      · rw [units, if_pos hlast]
      · have hone : value + 1 = (0 + 1) * binade + 0 := by omega
        have hscale := units_of_lt_binade 0 binade_pos
        have hunit : Nat.pow 2 0 = 1 := rfl
        rw [← hone, hunit, Nat.mul_one] at hscale
        omega
    rw [floor, if_pos h, hsucc]
    exact Nat.lt_succ_self value
  · obtain ⟨scale, offset, hoffset, hfloor, -, hlt⟩ := value_between h
    rw [hfloor, Nat.add_assoc, units_of_le_binade scale hoffset]
    exact hlt

end BlockTemplates.Magnitude
