/-
What the nearest step is.

- `nearest_roundsTo`: a quotient of natural numbers rounds to its nearest step; products and quotients of steps are
  rounded in the same way (`mul_roundsTo`, `div_roundsTo`).
- `RoundsTo.within`: behind the first binade a rounding changes a value by a factor of 1 + 2^-53 at most.
- `toRat_nearest`: a number of at most 53 bits, times a power of two, is not changed.
-/
import BlockTemplates.Proofs.Number.Spacing

namespace BlockTemplates.Magnitude

theorem inUnits_div (numerator denominator : ℕ) :
    inUnits (numerator / denominator) = ((numerator * unitsPerOne : ℕ) : ℚ) / denominator := by
  rw [inUnits]
  push_cast
  ring

/-- between two neighbouring steps a rational rounds to the nearer one, on their middle to the even one -/
theorem roundsTo_of_between {x : ℚ} {n : ℕ} (hle : units n ≤ inUnits x) (hlt : inUnits x < units (n + 1)) :
    (2 * inUnits x ≤ units n + units (n + 1) → (2 * inUnits x = units n + units (n + 1) → n % 2 = 0) →
      RoundsTo x n) ∧
    (units n + units (n + 1) ≤ 2 * inUnits x → (2 * inUnits x = units n + units (n + 1) → (n + 1) % 2 = 0) →
      RoundsTo x (n + 1)) := by
  have hbelow : (units (n - 1) : ℚ) ≤ units n := by exact_mod_cast units_strictMono.monotone (Nat.sub_le n 1)
  have habove : (units (n + 1) : ℚ) < units (n + 1 + 1) := by exact_mod_cast units_lt_succ (n + 1)
  refine ⟨fun hnear heven => ?_, fun hnear heven => ?_⟩
  · refine ⟨?_, ?_, fun hlow => ?_, fun hhigh => ?_⟩ <;> rw [mul_halves] at *
    · linarith
    · exact hnear
    · have hsame : units (n - 1) = units n := by
        have : (units (n - 1) : ℚ) = units n := by linarith
        exact_mod_cast this
      have := units_strictMono.injective hsame
      omega
    · exact heven hhigh
  · refine ⟨?_, ?_, fun hlow => ?_, fun hhigh => ?_⟩ <;> rw [mul_halves] at *
    · exact hnear
    · linarith
    · exact heven hlow
    · linarith

/-- the step closest to a quotient, by its units -/
theorem nearest_eq (numerator denominator : ℕ) :
    nearest numerator denominator =
      let scaled := numerator * unitsPerOne
      let step := floor (scaled / denominator)
      let middle := (units step + units (step + 1)) * denominator
      if 2 * scaled < middle then step
      else if middle < 2 * scaled then step + 1
      else if step % 2 = 0 then step
      else step + 1 := by
  have hfinest : finest - 1 = 1074 := by
    have := finest_eq
    omega
  rw [nearest, ← hfinest, ← unitsPerOne]

/-- **A quotient rounds to its nearest step.** -/
theorem nearest_roundsTo (numerator : ℕ) {denominator : ℕ} (h : 0 < denominator) :
    RoundsTo (numerator / denominator) (nearest numerator denominator) := by
  have hpos : (0 : ℚ) < denominator := by exact_mod_cast h
  have hvalue := inUnits_div numerator denominator
  have hnearest := nearest_eq numerator denominator
  dsimp only at hnearest
  set scaled := numerator * unitsPerOne
  set step := floor (scaled / denominator)
  have hle : (units step : ℚ) ≤ inUnits (numerator / denominator) := by
    rw [hvalue, le_div_iff₀ hpos]
    exact_mod_cast (Nat.le_div_iff_mul_le h).1 (units_floor_le _)
  have hlt : inUnits (numerator / denominator) < units (step + 1) := by
    rw [hvalue, div_lt_iff₀ hpos]
    exact_mod_cast (Nat.div_lt_iff_lt_mul h).1 (lt_units_floor_succ _)
  have hscaled : 2 * inUnits (numerator / denominator) * denominator = (2 * scaled : ℕ) := by
    rw [hvalue]
    push_cast
    field_simp
  have hmiddle : ((units step : ℚ) + units (step + 1)) * denominator =
      ((units step + units (step + 1)) * denominator : ℕ) := by
    push_cast
    rfl
  obtain ⟨hstep, hnext⟩ := roundsTo_of_between hle hlt
  rw [hnearest]
  split_ifs with hbelow habove heven
  · have hnear : 2 * inUnits (numerator / denominator) < units step + units (step + 1) := by
      refine lt_of_mul_lt_mul_right ?_ hpos.le
      rw [hscaled, hmiddle]
      exact_mod_cast hbelow
    exact hstep hnear.le fun heq => absurd heq hnear.ne
  · have hnear : units step + units (step + 1) < 2 * inUnits (numerator / denominator) := by
      refine lt_of_mul_lt_mul_right ?_ hpos.le
      rw [hscaled, hmiddle]
      exact_mod_cast habove
    exact hnext hnear.le fun heq => absurd heq hnear.ne'
  all_goals
    have heq : 2 * inUnits (numerator / denominator) = units step + units (step + 1) := by
      refine mul_right_cancel₀ hpos.ne' ?_
      rw [hscaled, hmiddle]
      exact_mod_cast Nat.le_antisymm (Nat.le_of_not_lt habove) (Nat.le_of_not_lt hbelow)
  · exact hstep heq.le fun _ => heven
  · exact hnext heq.ge fun _ => by omega

/-! ## Values of steps -/

/-- the rational that a step stands for -/
def toRat (n : ℕ) : ℚ :=
  units n / unitsPerOne

theorem unitsPerOne_ratPos : (0 : ℚ) < unitsPerOne := by
  exact_mod_cast unitsPerOne_pos

theorem inUnits_toRat (n : ℕ) : inUnits (toRat n) = units n :=
  div_mul_cancel₀ _ unitsPerOne_ratPos.ne'

theorem toRat_nonneg (n : ℕ) : 0 ≤ toRat n :=
  div_nonneg (Nat.cast_nonneg _) unitsPerOne_ratPos.le

theorem mul_roundsTo (a b : ℕ) : RoundsTo (toRat a * toRat b) (mul a b) := by
  have hfinest : finest - 1 + (finest - 1) = 2148 := by
    have := finest_eq
    omega
  have hpow : Nat.pow 2 (finest - 1 + (finest - 1)) = unitsPerOne * unitsPerOne := Nat.pow_add 2 _ _
  have hnearest := nearest_roundsTo (units a * units b) (Nat.mul_pos unitsPerOne_pos unitsPerOne_pos)
  have hvalue : toRat a * toRat b = ((units a * units b : ℕ) : ℚ) / (unitsPerOne * unitsPerOne : ℕ) := by
    rw [toRat, toRat, div_mul_div_comm]
    push_cast
    rfl
  rw [mul, ← hfinest, hpow, hvalue]
  exact hnearest

theorem div_roundsTo (a : ℕ) {b : ℕ} (hb : 0 < b) : RoundsTo (toRat a / toRat b) (div a b) := by
  have hpos : 0 < units b := Nat.lt_of_le_of_lt (Nat.zero_le _) (units_strictMono hb)
  have hvalue : toRat a / toRat b = (units a : ℚ) / units b :=
    div_div_div_cancel_right₀ unitsPerOne_ratPos.ne' _ _
  rw [hvalue]
  exact nearest_roundsTo (units a) hpos

/-! ## The error of a rounding -/

/-- `x` and `y` differ by a factor of `t` at most -/
structure Within (t x y : ℚ) : Prop where
  le : x ≤ y * t
  ge : y ≤ x * t

namespace Within

variable {s t x y a b : ℚ}

theorem mul (hx : 0 ≤ x) (hy : 0 ≤ y) (ha : 0 ≤ a) (hb : 0 ≤ b) (hs : 0 ≤ s) (hxy : Within s x y)
    (hab : Within t a b) : Within (s * t) (x * a) (y * b) := by
  constructor
  · calc x * a ≤ (y * s) * (b * t) := mul_le_mul hxy.le hab.le ha (mul_nonneg hy hs)
      _ = y * b * (s * t) := by ring
  · calc y * b ≤ (x * s) * (a * t) := mul_le_mul hxy.ge hab.ge hb (mul_nonneg hx hs)
      _ = x * a * (s * t) := by ring

theorem inv (ha : 0 < a) (hb : 0 < b) (hab : Within t a b) : Within t a⁻¹ b⁻¹ := by
  constructor
  · rw [inv_le_iff_one_le_mul₀ ha]
    calc 1 = b⁻¹ * b := (inv_mul_cancel₀ hb.ne').symm
      _ ≤ b⁻¹ * (a * t) := mul_le_mul_of_nonneg_left hab.ge (inv_nonneg.2 hb.le)
      _ = b⁻¹ * t * a := by ring
  · rw [inv_le_iff_one_le_mul₀ hb]
    calc 1 = a⁻¹ * a := (inv_mul_cancel₀ ha.ne').symm
      _ ≤ a⁻¹ * (b * t) := mul_le_mul_of_nonneg_left hab.le (inv_nonneg.2 ha.le)
      _ = a⁻¹ * t * b := by ring

end Within

/-- half the distance of the steps behind a power of two, relative to this power: 2^-53 -/
def roundoff : ℚ :=
  1 / (2 * binade)

theorem binade_ratPos : (0 : ℚ) < binade := by
  exact_mod_cast binade_pos

theorem roundoff_pos : 0 < roundoff := by
  have := binade_ratPos
  rw [roundoff]
  positivity

theorem half_le_mul_roundoff {g x : ℚ} (h : binade * g ≤ x) : g / 2 ≤ x * roundoff := by
  have hb := binade_ratPos
  rw [roundoff, mul_one_div, le_div_iff₀ (by positivity)]
  linarith

theorem inUnits_le_mul_iff {x y t : ℚ} : inUnits x ≤ inUnits y * t ↔ x ≤ y * t := by
  rw [inUnits, inUnits, mul_right_comm]
  exact mul_le_mul_iff_of_pos_right unitsPerOne_ratPos

/-- behind the first binade a rounding changes a value by a factor of 1 + 2^-53 at most -/
theorem RoundsTo.within {x : ℚ} {n : ℕ} (h : RoundsTo x n) (hn : binade < n) : Within (1 + roundoff) x (toRat n) := by
  obtain ⟨k, rfl⟩ : ∃ k, n = k + 1 := ⟨n - 1, by omega⟩
  have hbelow : (binade * gap k : ℚ) ≤ units k := by exact_mod_cast binade_mul_gap_le (Nat.le_of_lt_succ hn)
  have habove : (binade * gap (k + 1) : ℚ) ≤ units (k + 1) := by exact_mod_cast binade_mul_gap_le (Nat.le_of_lt hn)
  have hsucc : (units (k + 1) : ℚ) = units k + gap k := by exact_mod_cast units_succ k
  have hgap : (0 : ℚ) ≤ gap k := Nat.cast_nonneg _
  have hlow := h.le_inUnits
  have hhigh := h.inUnits_le
  rw [Nat.add_sub_cancel] at hlow
  -- in units, the value is at most half a gap above the step and at most half the gap in front of it below
  have hle : inUnits x ≤ units (k + 1) * (1 + roundoff) := by
    have := half_le_mul_roundoff habove
    linarith
  have hge : (units (k + 1) : ℚ) ≤ inUnits x * (1 + roundoff) := by
    have := half_le_mul_roundoff (hbelow.trans (by linarith : (units k : ℚ) ≤ inUnits x))
    linarith
  rw [← inUnits_toRat] at hle hge
  exact ⟨inUnits_le_mul_iff.1 hle, inUnits_le_mul_iff.1 hge⟩

theorem RoundsTo.binade_lt {x : ℚ} {n : ℕ} (h : RoundsTo x n) (hx : binade + 1 ≤ inUnits x) : binade < n := by
  by_contra hle
  have hn : n ≤ binade := Nat.le_of_not_lt hle
  have hunits : (units n : ℚ) ≤ binade := by
    rw [units_of_le hn]
    exact_mod_cast hn
  have hhigh := h.inUnits_le
  rw [gap_of_le hn, Nat.cast_one] at hhigh
  linarith

/-- a rounding changes a value by a factor of 1 + 2^-53 and half a unit at most -/
theorem RoundsTo.error {x : ℚ} {n : ℕ} (h : RoundsTo x n) (hx : 0 ≤ x) :
    inUnits x ≤ units n * (1 + roundoff) + 1 / 2 ∧ units n ≤ inUnits x * (1 + roundoff) + 1 / 2 := by
  have hroundoff := roundoff_pos
  have hunits : (0 : ℚ) ≤ units n := Nat.cast_nonneg _
  have hvalue : 0 ≤ inUnits x := mul_nonneg hx unitsPerOne_ratPos.le
  by_cases hn : binade < n
  · obtain ⟨hle, hge⟩ := h.within hn
    rw [← inUnits_le_mul_iff, inUnits_toRat] at hle hge
    exact ⟨by linarith, by linarith⟩
  · -- here the steps are one unit apart
    have hhigh := h.inUnits_le
    have hlow := h.le_inUnits
    have hprev : (units n : ℚ) ≤ units (n - 1) + 1 := by
      rcases Nat.eq_zero_or_pos n with rfl | hpos
      · simp
      · have hsucc := units_succ (n - 1)
        rw [Nat.sub_add_cancel hpos, gap_of_le (by omega)] at hsucc
        exact_mod_cast hsucc.le
    rw [gap_of_le (Nat.le_of_not_lt hn), Nat.cast_one] at hhigh
    have := mul_nonneg hunits hroundoff.le
    have := mul_nonneg hvalue hroundoff.le
    exact ⟨by linarith, by linarith⟩

/-- a rounding of what differs by a factor of `t` from a value -/
theorem RoundsTo.error_of_within {t x y : ℚ} {n : ℕ} (h : RoundsTo y n) (hy : 0 ≤ y) (ht : 0 ≤ t) (hxy : Within t x y) :
    inUnits x ≤ units n * (t * (1 + roundoff)) + t / 2 ∧ units n ≤ inUnits x * (t * (1 + roundoff)) + 1 / 2 := by
  have hroundoff := roundoff_pos
  obtain ⟨hdown, hup⟩ := h.error hy
  constructor
  · calc inUnits x ≤ inUnits y * t := inUnits_le_mul_iff.2 hxy.le
      _ ≤ (units n * (1 + roundoff) + 1 / 2) * t := mul_le_mul_of_nonneg_right hdown ht
      _ = units n * (t * (1 + roundoff)) + t / 2 := by ring
  · calc (units n : ℚ) ≤ inUnits y * (1 + roundoff) + 1 / 2 := hup
      _ ≤ inUnits x * t * (1 + roundoff) + 1 / 2 := by
        have := mul_le_mul_of_nonneg_right (inUnits_le_mul_iff.2 hxy.ge) (by linarith : 0 ≤ 1 + roundoff)
        linarith
      _ = inUnits x * (t * (1 + roundoff)) + 1 / 2 := by ring

theorem binade_add_one_le : binade + 1 ≤ unitsPerOne := by
  have hfinest : 53 ≤ finest - 1 := by
    have := finest_eq
    omega
  calc binade + 1 ≤ Nat.pow 2 53 := by decide
    _ ≤ unitsPerOne := Nat.pow_le_pow_right (by decide) hfinest

/-- the nearest step of a number that is not zero differs from it by a factor of 1 + 2^-53 at most -/
theorem within_nearest {c : ℕ} (hc : 0 < c) : Within (1 + roundoff) c (toRat (nearest c 1)) := by
  have hrounds := nearest_roundsTo c Nat.one_pos
  rw [Nat.cast_one, div_one] at hrounds
  refine hrounds.within (hrounds.binade_lt ?_)
  have hle : binade + 1 ≤ c * unitsPerOne := binade_add_one_le.trans (Nat.le_mul_of_pos_left _ hc)
  rw [inUnits]
  exact_mod_cast hle

/-! ## Numbers of 53 bits -/

/-- a number of at most 53 bits, times a power of two, is the value of a step, in units -/
theorem exists_units_eq {m e : ℕ} (hm : 0 < m) (hbits : m ≤ 2 * binade) (he : 52 ≤ e) :
    ∃ n, units n = m * 2 ^ e := by
  obtain ⟨i, hi, hlow, hhigh⟩ : ∃ i ≤ 52, binade ≤ m * 2 ^ i ∧ m * 2 ^ i ≤ 2 * binade := by
    rcases Nat.lt_or_eq_of_le hbits with hlt | rfl
    · have hlog : m.log2 ≤ 52 := by
        have := (Nat.log2_lt (k := 53) (Nat.ne_of_gt hm)).2 hlt
        omega
      have hsplit : 2 ^ m.log2 * 2 ^ (52 - m.log2) = binade := by
        rw [← Nat.pow_add, Nat.add_sub_cancel' hlog]
        rfl
      have hself := Nat.log2_self_le (Nat.ne_of_gt hm)
      have hnext := Nat.lt_log2_self (n := m)
      refine ⟨52 - m.log2, Nat.sub_le _ _, ?_, ?_⟩
      · rw [← hsplit]
        exact Nat.mul_le_mul_right _ hself
      · rw [← hsplit, ← Nat.mul_assoc, ← Nat.pow_succ']
        exact Nat.mul_le_mul_right _ hnext.le
    · exact ⟨0, by decide, by omega, by omega⟩
  obtain ⟨offset, hoffset⟩ := Nat.exists_eq_add_of_le hlow
  refine ⟨(e - i + 1) * binade + offset, ?_⟩
  have hsplit : 2 ^ e = 2 ^ i * 2 ^ (e - i) := by
    rw [← Nat.pow_add]
    congr 1
    omega
  rw [units_of_le_binade _ (by omega), ← hoffset, hsplit, ← Nat.mul_assoc]
  rfl

/-- such a number is kept by a rounding -/
theorem toRat_nearest {m j : ℕ} (hm : 0 < m) (hbits : m ≤ 2 * binade) :
    toRat (nearest (m * 2 ^ j) 1) = (m * 2 ^ j : ℕ) := by
  have hfinest : 52 ≤ j + (finest - 1) := by
    have := finest_eq
    omega
  obtain ⟨n, hn⟩ := exists_units_eq hm hbits hfinest
  have hunits : (units n : ℚ) = inUnits (m * 2 ^ j : ℕ) := by
    rw [hn, Nat.pow_add, ← Nat.mul_assoc, inUnits, unitsPerOne]
    exact_mod_cast rfl
  have hpos : 0 < n := by
    rw [← units_strictMono.lt_iff_lt, units_zero, hn]
    positivity
  have hself : RoundsTo (m * 2 ^ j : ℕ) n := roundsTo_units hpos (by rw [mul_halves, hunits])
  have hrounds := nearest_roundsTo (m * 2 ^ j) Nat.one_pos
  rw [Nat.cast_one, div_one] at hrounds
  rw [hrounds.step_unique hself, toRat, hunits]
  exact mul_div_cancel_right₀ _ unitsPerOne_ratPos.ne'

end BlockTemplates.Magnitude
