/-
Which reals round to a magnitude, and that the shortest decimal is one of them.

`RoundsTo x n`: the nonnegative rational x lies between the middles to the two neighbours of step n, and on such a
middle only if n is even. The steps ascend (`units_strictMono`), so these intervals are disjoint.

Results:
- `RoundsTo.step_unique`: a rational rounds to at most one step.
- `shortest_roundsTo`: the shortest decimal of a step rounds to the step, under both tie rules. The search for it may
  run out of grids; its last resort is the exact value.
-/
import Mathlib.Tactic
import BlockTemplates.Number.Shortest

namespace BlockTemplates

namespace Decimal

/-- the rational that a decimal stands for -/
def value (d : Decimal) : ℚ :=
  d.coefficient * (10 : ℚ) ^ d.exponent

theorem value_strip (d : Decimal) : d.strip.value = d.value := by
  have key : ∀ (fuel c : ℕ) (e : ℤ), (strip.go fuel c e).value = value ⟨c, e⟩ := by
    intro fuel
    induction fuel with
    | zero => intro c e; rfl
    | succ fuel ih =>
      intro c e
      rw [strip.go]
      split_ifs with hc
      · have hten : (10 : ℚ) * ((c / 10 : ℕ) : ℚ) = c := by
          exact_mod_cast Nat.mul_div_cancel' (Nat.dvd_of_mod_eq_zero hc)
        rw [ih, value, value, zpow_add₀ (by norm_num), ← hten]
        ring
      · rfl
  exact key d.coefficient d.coefficient d.exponent

end Decimal

namespace Magnitude

/-! ## The steps ascend -/

theorem units_of_le {n : ℕ} (h : n ≤ binade) : units n = n := by
  rcases Nat.lt_or_eq_of_le h with hlt | heq
  · simp [units, hlt]
  · have hfirst := units_of_lt_binade 0 binade_pos
    simp only [Nat.zero_add, Nat.one_mul, Nat.add_zero, Nat.pow_zero, Nat.mul_one, Nat.pow_eq] at hfirst
    rw [heq, hfirst]

theorem units_lt_succ (n : ℕ) : units n < units (n + 1) := by
  by_cases h : n < binade
  · rw [units_of_le (Nat.le_of_lt h), units_of_le h]
    exact Nat.lt_succ_self n
  · -- behind the first binade a step is its scale and an offset in the scale's binade
    obtain ⟨m, hm⟩ := Nat.exists_eq_add_of_le (Nat.le_of_not_lt h)
    have hn : n = (m / binade + 1) * binade + m % binade := by
      have := Nat.div_add_mod' m binade
      rw [Nat.add_mul, Nat.one_mul]
      omega
    have hoffset : m % binade < binade := Nat.mod_lt _ binade_pos
    rw [hn, Nat.add_assoc, units_of_lt_binade _ hoffset, units_of_le_binade _ hoffset]
    exact Nat.mul_lt_mul_of_pos_right (by omega) (Nat.pow_pos (by decide))

theorem units_strictMono : StrictMono units :=
  strictMono_nat_of_lt_succ units_lt_succ

theorem units_zero : units 0 = 0 :=
  units_of_le (Nat.zero_le _)

/-! ## The interval of a step -/

/-- `x` is rounded to step `n`; lengths are in half units, so that the middles are whole -/
structure RoundsTo (x : ℚ) (n : ℕ) : Prop where
  low : (units (n - 1) + units n : ℚ) ≤ x * halves
  high : x * halves ≤ units n + units (n + 1)
  even_low : x * halves = units (n - 1) + units n → n % 2 = 0
  even_high : x * halves = units n + units (n + 1) → n % 2 = 0

theorem RoundsTo.not_lt {x : ℚ} {n m : ℕ} (hn : RoundsTo x n) (hm : RoundsTo x m) : ¬n < m := by
  intro hlt
  have hstep : units n ≤ units (m - 1) := units_strictMono.monotone (by omega)
  have hnext : units (n + 1) ≤ units m := units_strictMono.monotone (by omega)
  have hmiddles : (units n + units (n + 1) : ℚ) ≤ units (m - 1) + units m := by
    exact_mod_cast Nat.add_le_add hstep hnext
  -- x can only be the one middle between n and m, so both are even; but then m is n + 1
  have hhigh : x * halves = units n + units (n + 1) :=
    le_antisymm hn.high (hmiddles.trans hm.low)
  have hlow : x * halves = units (m - 1) + units m :=
    le_antisymm (hn.high.trans hmiddles) hm.low
  have hsum : units n + units (n + 1) = units (m - 1) + units m := by exact_mod_cast hhigh.symm.trans hlow
  have hneighbour : m = n + 1 := units_strictMono.injective (by omega)
  have := hn.even_high hhigh
  have := hm.even_low hlow
  omega

/-- **A rational rounds to at most one step.** -/
theorem RoundsTo.step_unique {x : ℚ} {n m : ℕ} (hn : RoundsTo x n) (hm : RoundsTo x m) : n = m := by
  rcases Nat.lt_trichotomy n m with h | h | h
  · exact absurd h (hn.not_lt hm)
  · exact h
  · exact absurd h (hm.not_lt hn)

/-- the value of a step rounds to the step -/
theorem roundsTo_units {x : ℚ} {n : ℕ} (hn : 0 < n) (hx : x * halves = 2 * units n) : RoundsTo x n := by
  have hbelow : (units (n - 1) : ℚ) < units n := by exact_mod_cast units_strictMono (by omega : n - 1 < n)
  have habove : (units n : ℚ) < units (n + 1) := by exact_mod_cast units_lt_succ n
  constructor
  · rw [hx]; linarith
  · rw [hx]; linarith
  · intro h; rw [hx] at h; linarith
  · intro h; rw [hx] at h; linarith

/-! ## The shortest decimal -/

/-- the value of a grid point in the lengths of the grid -/
theorem value_mul_scale (c : ℕ) (e : ℤ) :
    Decimal.value ⟨c, e⟩ * halves * scale e = ((c * cell e : ℕ) : ℚ) := by
  have hpow : (10 : ℚ) ^ e * 10 ^ (-e).toNat = 10 ^ e.toNat := by
    rw [← zpow_natCast, ← zpow_natCast, ← zpow_add₀ (by norm_num)]
    congr 1
    omega
  simp only [Decimal.value, cell, scale, Nat.pow_eq]
  push_cast
  rw [← hpow]
  ring

theorem scale_pos (e : ℤ) : (0 : ℚ) < scale e := by
  simp only [scale, Nat.pow_eq]
  positivity

/-- a grid point that the search accepts rounds to the step -/
theorem roundsTo_of_isInside {n c : ℕ} {e : ℤ} (h : isInside n e c = true) : RoundsTo (Decimal.value ⟨c, e⟩) n := by
  have hvalue := value_mul_scale c e
  have hscale := scale_pos e
  have hmiddles : (units (n - 1) + units n : ℚ) < units n + units (n + 1) := by
    exact_mod_cast Nat.add_lt_add_of_le_of_lt (units_strictMono.monotone (Nat.sub_le n 1)) (units_lt_succ n)
  simp only [isInside, Bool.or_eq_true, Bool.and_eq_true, decide_eq_true_eq, beq_iff_eq] at h
  set x := Decimal.value ⟨c, e⟩ * halves with hx
  rcases h with ⟨hlow, hhigh⟩ | ⟨heven, heq | heq⟩
  · have hlow' : (units (n - 1) + units n : ℚ) < x := by
      refine lt_of_mul_lt_mul_right ?_ hscale.le
      rw [hvalue]
      exact_mod_cast hlow
    have hhigh' : x < units n + units (n + 1) := by
      refine lt_of_mul_lt_mul_right ?_ hscale.le
      rw [hvalue]
      exact_mod_cast hhigh
    exact ⟨hlow'.le, hhigh'.le, fun h => absurd h hlow'.ne', fun h => absurd h hhigh'.ne⟩
  · have hmiddle : x = units (n - 1) + units n := by
      refine mul_right_cancel₀ hscale.ne' ?_
      rw [hvalue, heq]
      push_cast
      rfl
    exact ⟨hmiddle.ge, hmiddle.le.trans hmiddles.le, fun _ => heven, fun _ => heven⟩
  · have hmiddle : x = units n + units (n + 1) := by
      refine mul_right_cancel₀ hscale.ne' ?_
      rw [hvalue, heq]
      push_cast
      rfl
    exact ⟨hmiddles.le.trans hmiddle.ge, hmiddle.le, fun _ => heven, fun _ => heven⟩

theorem nearer_eq_or (tie : Tie) (value cell below : ℕ) :
    nearer tie value cell below = below ∨ nearer tie value cell below = below + 1 := by
  unfold nearer
  dsimp only
  split_ifs
  · exact Or.inl rfl
  · exact Or.inr rfl
  · cases tie with
    | up => exact Or.inr rfl
    | toEven => exact Or.inl rfl
  · cases tie <;> exact Or.inr rfl

/-- a candidate of a grid is one of its accepted points -/
theorem isInside_of_candidate? {tie : Tie} {n c : ℕ} {e : ℤ} (h : candidate? tie n e = some c) :
    isInside n e c = true := by
  unfold candidate? at h
  dsimp only at h
  split_ifs at h with hbelow habove habove
  · cases h
    rcases nearer_eq_or tie (2 * units n * scale e) (cell e) (2 * units n * scale e / cell e) with heq | heq
    · rw [heq]; exact hbelow
    · rw [heq]; exact habove
  · cases h; exact hbelow
  · cases h; exact habove

/-- the last resort of a search, on the grid `10 ^ -k`, is the exact value -/
theorem value_exact (u k : ℕ) : Decimal.value ⟨u * Nat.pow 5 k, -k⟩ * (Nat.pow 2 k : ℕ) = u := by
  simp only [Decimal.value, Nat.pow_eq]
  push_cast
  have hten : (5 : ℚ) ^ k * 2 ^ k = 10 ^ k := by rw [← mul_pow]; norm_num
  have hpos : (10 : ℚ) ^ k ≠ 0 := by positivity
  rw [zpow_neg, zpow_natCast, mul_assoc, mul_assoc, mul_comm _ ((2 : ℚ) ^ k), ← mul_assoc (5 ^ k), hten,
    mul_inv_cancel₀ hpos, mul_one]

/-- what a search finds: a candidate of a grid, or the last resort behind the last grid -/
theorem search_induction {P : Decimal → Prop} {candidates : ℤ → Option ℕ} {last : ℕ} {depth : ℤ}
    (hlast : P ⟨last, -depth⟩) (hcandidates : ∀ e c, candidates e = some c → P ⟨c, e⟩) (fuel : ℕ) :
    P (search candidates last fuel (fuel - depth)) := by
  induction fuel with
  | zero => simpa [search] using hlast
  | succ fuel ih =>
    rw [search]
    split
    · next c hc => exact hcandidates _ c hc
    · rwa [show ((fuel + 1 : ℕ) : ℤ) - depth - 1 = fuel - depth by push_cast; ring]

theorem roundsTo_exact {n : ℕ} (hn : 0 < n) : RoundsTo (Decimal.value ⟨exact n, -finest⟩) n := by
  apply roundsTo_units hn
  have hexact := value_exact (2 * units n) finest
  rw [halves, exact, hexact]
  push_cast
  rfl

/-- **The shortest decimal of a step rounds to the step.** -/
theorem shortest_roundsTo (tie : Tie) (n : ℕ) : RoundsTo (shortest tie n).value n := by
  unfold shortest
  split_ifs with hn
  · subst hn
    have hone : units 1 = 1 := units_of_le (by decide)
    constructor <;> simp [Decimal.value, units_zero, hone]
  · rw [Decimal.value_strip]
    have hfound := search_induction (P := fun d => RoundsTo d.value n) (roundsTo_exact (Nat.pos_of_ne_zero hn))
      (fun e c (hc : candidate? tie n e = some c) => roundsTo_of_isInside (isInside_of_candidate? hc))
      (bound n + finest)
    rwa [show ((bound n + finest : ℕ) : ℤ) - finest = bound n by push_cast; ring] at hfound

/-- different steps have different shortest decimals, even as rationals -/
theorem eq_of_value_shortest_eq (tie : Tie) {n m : ℕ} (h : (shortest tie n).value = (shortest tie m).value) : n = m :=
  (shortest_roundsTo tie n).step_unique (h ▸ shortest_roundsTo tie m)

end Magnitude

end BlockTemplates
