/-
How far the steps are apart.

`gap n` is the distance of step n to the next one. The gaps grow with the steps (`gap_le_succ`) and stay in proportion to
them: below step n lie fewer than 2^53 of its gaps (`units_le`), and at least 2^52 unless n is in the first binade
(`binade_mul_gap_le`).

So two rationals that are a few gaps apart round to steps that are as few apart: `RoundsTo.le_add`.
-/
import BlockTemplates.Proofs.Number.Rounding

namespace BlockTemplates.Magnitude

/-- the distance of a step to the next one, in units -/
def gap (n : ℕ) : ℕ :=
  units (n + 1) - units n

theorem units_succ (n : ℕ) : units (n + 1) = units n + gap n := by
  have := units_lt_succ n
  rw [gap]
  omega

theorem gap_pos (n : ℕ) : 0 < gap n :=
  Nat.sub_pos_of_lt (units_lt_succ n)

/-! ## Gaps of a binade -/

/-- a step behind the first binade is its scale and an offset in the scale's binade -/
theorem exists_scale {n : ℕ} (h : binade ≤ n) : ∃ scale offset, offset < binade ∧ n = (scale + 1) * binade + offset := by
  obtain ⟨m, rfl⟩ := Nat.exists_eq_add_of_le h
  refine ⟨m / binade, m % binade, Nat.mod_lt _ binade_pos, ?_⟩
  have := Nat.div_add_mod' m binade
  rw [Nat.add_mul, Nat.one_mul]
  omega

theorem gap_of_lt {n : ℕ} (h : n < binade) : gap n = 1 := by
  rw [gap, units_of_le h, units_of_le (Nat.le_of_lt h)]
  omega

theorem gap_of_scale (scale : ℕ) {offset : ℕ} (h : offset < binade) : gap ((scale + 1) * binade + offset) = 2 ^ scale := by
  rw [gap, Nat.add_assoc, units_of_le_binade scale h, units_of_lt_binade scale h, ← Nat.sub_mul]
  simp [Nat.add_sub_add_left]

/-- the first two binades have the same gaps -/
theorem gap_of_le {n : ℕ} (h : n ≤ binade) : gap n = 1 := by
  rcases Nat.lt_or_eq_of_le h with hlt | rfl
  · exact gap_of_lt hlt
  · have hfirst := gap_of_scale 0 binade_pos
    rwa [Nat.zero_add, Nat.one_mul, Nat.add_zero, Nat.pow_zero] at hfirst

theorem gap_le_succ (n : ℕ) : gap n ≤ gap (n + 1) := by
  by_cases h : n < binade
  · rw [gap_of_lt h]
    exact gap_pos _
  · obtain ⟨scale, offset, hoffset, rfl⟩ := exists_scale (Nat.le_of_not_lt h)
    rw [gap_of_scale scale hoffset]
    rcases Nat.lt_or_eq_of_le (Nat.succ_le_of_lt hoffset) with hlt | heq
    · rw [Nat.add_assoc, gap_of_scale scale hlt]
    · have hnext : (scale + 1) * binade + offset + 1 = (scale + 1 + 1) * binade + 0 := by
        rw [Nat.add_mul (scale + 1), Nat.one_mul]
        omega
      rw [hnext, gap_of_scale (scale + 1) binade_pos]
      exact Nat.pow_le_pow_right (by decide) (Nat.le_succ _)

theorem gap_mono {n m : ℕ} (h : n ≤ m) : gap n ≤ gap m :=
  monotone_nat_of_le_succ gap_le_succ h

/-- a step is less than 2^53 of its gaps -/
theorem units_le (n : ℕ) : units n ≤ (2 * binade - 1) * gap n := by
  by_cases h : n < binade
  · rw [gap_of_lt h, units_of_le (Nat.le_of_lt h)]
    omega
  · obtain ⟨scale, offset, hoffset, rfl⟩ := exists_scale (Nat.le_of_not_lt h)
    rw [gap_of_scale scale hoffset, units_of_lt_binade scale hoffset]
    exact Nat.mul_le_mul_right _ (by omega)

/-- behind the first binade it is at least 2^52 of them -/
theorem binade_mul_gap_le {n : ℕ} (h : binade ≤ n) : binade * gap n ≤ units n := by
  obtain ⟨scale, offset, hoffset, rfl⟩ := exists_scale h
  rw [gap_of_scale scale hoffset, units_of_lt_binade scale hoffset]
  exact Nat.mul_le_mul_right _ (Nat.le_add_right _ _)

theorem units_add (n j : ℕ) : units n + j * gap n ≤ units (n + j) := by
  induction j with
  | zero => simp
  | succ j ih =>
    have hgap := gap_mono (Nat.le_add_right n j)
    rw [← Nat.add_assoc, units_succ, Nat.add_mul, Nat.one_mul]
    omega

/-! ## Rationals that round to a step -/

def unitsPerOne : ℕ :=
  Nat.pow 2 (finest - 1)

def inUnits (x : ℚ) : ℚ :=
  x * unitsPerOne

theorem finest_eq : finest = 1075 := by
  unfold finest
  rfl

theorem halves_eq : halves = 2 * unitsPerOne := by
  have hfinest : finest = finest - 1 + 1 := by
    have := finest_eq
    omega
  rw [halves, unitsPerOne, hfinest, pow_succ_eq, Nat.add_sub_cancel, Nat.two_mul]

theorem unitsPerOne_pos : 0 < unitsPerOne :=
  Nat.pow_pos (by decide)

theorem mul_halves (x : ℚ) : x * halves = 2 * inUnits x := by
  rw [halves_eq, inUnits]
  push_cast
  ring

namespace RoundsTo

variable {x y : ℚ} {n m : ℕ}

theorem inUnits_le (h : RoundsTo x n) : inUnits x ≤ units n + gap n / 2 := by
  have hhigh := h.high
  have hsucc : (units (n + 1) : ℚ) = units n + gap n := by exact_mod_cast units_succ n
  rw [mul_halves, hsucc] at hhigh
  linarith

theorem le_inUnits (h : RoundsTo x n) : (units (n - 1) + units n : ℚ) / 2 ≤ inUnits x := by
  have hlow := h.low
  rw [mul_halves] at hlow
  linarith

/-- what rounds to a step is less than 2^53 of its gaps -/
theorem inUnits_le_gap (h : RoundsTo x n) : inUnits x ≤ (2 * binade - 1 / 2) * gap n := by
  have hunits : (units n : ℚ) ≤ (2 * binade - 1) * gap n := by
    have hle := units_le n
    have hone : 1 ≤ 2 * binade := by decide
    rw [Nat.sub_mul, Nat.one_mul] at hle
    have hgap : gap n ≤ 2 * binade * gap n := Nat.le_mul_of_pos_left _ hone
    have hsum : units n + gap n ≤ 2 * binade * gap n := by omega
    have : (units n + gap n : ℚ) ≤ 2 * binade * gap n := by exact_mod_cast hsum
    linarith
  have := h.inUnits_le
  linarith

/-- a rational less than `j` gaps above one that rounds to step n rounds to step n + j at most -/
theorem le_add {j : ℕ} (hx : RoundsTo x n) (hy : RoundsTo y m) (h : inUnits y < inUnits x + j * gap n) :
    m ≤ n + j := by
  by_contra hlt
  -- then y is above the middle of the steps n + j and n + j + 1, which is j gaps above the middle of n and n + 1
  have hbelow : n + j ≤ m - 1 := by omega
  have habove : n + j + 1 ≤ m := by omega
  have hstep : units n + j * gap n ≤ units (m - 1) := (units_add n j).trans (units_strictMono.monotone hbelow)
  have hnext : units n + (j + 1) * gap n ≤ units m := (units_add n (j + 1)).trans (units_strictMono.monotone habove)
  have hlow := hy.le_inUnits
  have hhigh := hx.inUnits_le
  have hstep' : (units n + j * gap n : ℚ) ≤ units (m - 1) := by exact_mod_cast hstep
  have hnext' : (units n + (j + 1) * gap n : ℚ) ≤ units m := by exact_mod_cast hnext
  linarith

end RoundsTo

end BlockTemplates.Magnitude
