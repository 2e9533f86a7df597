/-
How large the parts of a shortest decimal are.

A grid whose points are closer together than the interval of a step has a point in it (`candidate?_isSome`). So the
search ends at the grid 10^-324 at the latest (`exists_shortest`), and the grid in front of the one where it ends has
wider cells than the interval: the coefficient has less than 58 bits, whatever the step (`shortest_bounds`).
-/
import BlockTemplates.Number.Layout
import BlockTemplates.Proofs.Number.Nearest

namespace BlockTemplates

namespace Decimal

theorem strip_bounds (d : Decimal) : d.strip.coefficient ≤ d.coefficient ∧ d.exponent ≤ d.strip.exponent := by
  have key : ∀ (fuel c : ℕ) (e : ℤ), (strip.go fuel c e).coefficient ≤ c ∧ e ≤ (strip.go fuel c e).exponent := by
    intro fuel
    induction fuel with
    | zero => exact fun c e => ⟨le_rfl, le_rfl⟩
    | succ fuel ih =>
      intro c e
      rw [strip.go]
      split_ifs
      · obtain ⟨hcoefficient, hexponent⟩ := ih (c / 10) (e + 1)
        exact ⟨hcoefficient.trans (Nat.div_le_self _ _), by omega⟩
      · exact ⟨le_rfl, le_rfl⟩
  exact key d.coefficient d.coefficient d.exponent

/-- the coefficient between the powers of ten that its digits stand for -/
theorem coefficient_lt (d : Decimal) : d.coefficient < 10 ^ d.digits.length :=
  (Nat.length_toDigits_le_iff (by decide) Nat.length_toDigits_pos).1 le_rfl

theorem le_coefficient {d : Decimal} (h : 0 < d.coefficient) : 10 ^ (d.digits.length - 1) ≤ d.coefficient := by
  by_cases hone : d.digits.length - 1 = 0
  · rw [hone]
    exact h
  · refine Nat.le_of_not_lt fun hlt => ?_
    have := (Nat.length_toDigits_le_iff (b := 10) (by decide) (Nat.pos_of_ne_zero hone)).2 hlt
    rw [digits] at hone this
    omega

end Decimal

namespace Magnitude

variable {tie : Tie} {n : ℕ} {e : ℤ}

/-! ## Where the search ends -/

theorem cell_pos (e : ℤ) : 0 < cell e := by
  rw [cell, halves]
  exact Nat.mul_pos (Nat.pow_pos (by decide)) (Nat.pow_pos (by decide))

theorem scale_natPos (e : ℤ) : 0 < scale e :=
  Nat.pow_pos (by decide)

theorem isInside_of_between {c : ℕ} (hlow : (units (n - 1) + units n) * scale e < c * cell e)
    (hhigh : c * cell e < (units n + units (n + 1)) * scale e) : isInside n e c = true := by
  simp only [isInside, hlow, hhigh, decide_true, Bool.and_self, Bool.true_or]

theorem candidate?_isSome_of_isInside (h : isInside n e (2 * units n * scale e / cell e) = true ∨
    isInside n e (2 * units n * scale e / cell e + 1) = true) : (candidate? tie n e).isSome = true := by
  unfold candidate?
  dsimp only
  split_ifs with hbelow habove habove
  · rfl
  · rfl
  · rfl
  · exact absurd h (not_or.2 ⟨hbelow, habove⟩)

/-- a grid whose cells are narrower than the interval of a step has a candidate -/
theorem candidate?_isSome (tie : Tie) (hn : 0 < n) (h : cell e < (units (n + 1) - units (n - 1)) * scale e) :
    (candidate? tie n e).isSome = true := by
  have hscale := scale_natPos e
  have hprev : units (n - 1) < units n := units_strictMono (Nat.sub_lt hn Nat.one_pos)
  have hnext := units_lt_succ n
  apply candidate?_isSome_of_isInside
  set below := 2 * units n * scale e / cell e
  have hle : below * cell e ≤ 2 * units n * scale e := Nat.div_mul_le_self _ _
  have hlt : 2 * units n * scale e < (below + 1) * cell e :=
    (Nat.div_lt_iff_lt_mul (cell_pos e)).1 (Nat.lt_succ_self _)
  have hlow : (units (n - 1) + units n) * scale e < 2 * units n * scale e :=
    Nat.mul_lt_mul_of_pos_right (by omega) hscale
  have hhigh : 2 * units n * scale e < (units n + units (n + 1)) * scale e :=
    Nat.mul_lt_mul_of_pos_right (by omega) hscale
  -- the point above the value is in the interval, or else the one below it, since both are not one cell away from it
  by_cases habove : (below + 1) * cell e < (units n + units (n + 1)) * scale e
  · exact .inr (isInside_of_between (hlow.trans hlt) habove)
  · refine .inl (isInside_of_between ?_ (hle.trans_lt hhigh))
    have hinterval : (units n + units (n + 1)) * scale e =
        (units (n - 1) + units n) * scale e + (units (n + 1) - units (n - 1)) * scale e := by
      rw [← Nat.add_mul]
      congr 1
      omega
    rw [Nat.add_mul, Nat.one_mul] at habove
    omega

/-- a search with a candidate in reach ends at the first grid with one -/
theorem search_spec {candidates : ℤ → Option ℕ} (last : ℕ) {fuel : ℕ} {start hit : ℤ}
    (hhit : (candidates hit).isSome = true) (hstart : hit ≤ start) (hfuel : start < hit + fuel) :
    ∃ c e, search candidates last fuel start = ⟨c, e⟩ ∧ candidates e = some c ∧ hit ≤ e ∧
      (e = start ∨ candidates (e + 1) = none) := by
  induction fuel generalizing start with
  | zero => simp at hfuel; omega
  | succ fuel ih =>
    rw [search]
    rcases hfirst : candidates start with _ | c
    · have hne : hit ≠ start := by
        rintro rfl
        rw [hfirst] at hhit
        cases hhit
      obtain ⟨c, e, hsearch, hc, he, hend⟩ := ih (by omega : hit ≤ start - 1) (by push_cast at hfuel; omega)
      refine ⟨c, e, hsearch, hc, he, .inr ?_⟩
      rcases hend with rfl | hnone
      · rwa [sub_add_cancel]
      · exact hnone
    · exact ⟨c, start, rfl, hfirst, hstart, .inl rfl⟩

/-- the grid 10^-324 has a candidate for every step -/
theorem candidate?_finest (tie : Tie) (hn : 0 < n) : (candidate? tie n (-324)).isSome = true := by
  apply candidate?_isSome tie hn
  have hprev : units (n - 1) < units n := units_strictMono (Nat.sub_lt hn Nat.one_pos)
  have hnext := units_lt_succ n
  have hgrid : cell (-324) < 2 * scale (-324) := by decide +kernel
  calc cell (-324) < 2 * scale (-324) := hgrid
    _ ≤ (units (n + 1) - units (n - 1)) * scale (-324) := Nat.mul_le_mul_right _ (by omega)

/-- what a search for a step finds -/
theorem exists_shortest (tie : Tie) (hn : 0 < n) : ∃ c e, shortest tie n = Decimal.strip ⟨c, e⟩ ∧
    isInside n e c = true ∧ -324 ≤ e ∧ (e = bound n ∨ candidate? tie n (e + 1) = none) := by
  have hfinest := finest_eq
  obtain ⟨c, e, hsearch, hc, he, hend⟩ := search_spec (exact n) (candidate?_finest tie hn)
    (by omega : -324 ≤ (bound n : ℤ)) (by push_cast; omega : (bound n : ℤ) < -324 + (bound n + finest : ℕ))
  rw [shortest, if_neg (Nat.ne_of_gt hn), hsearch]
  exact ⟨c, e, rfl, isInside_of_candidate? hc, he, hend⟩

/-! ## Bounds -/

theorem gap_le_units (hn : 0 < n) : gap n ≤ units n := by
  by_cases h : n < binade
  · rw [gap_of_lt h, units_of_le (Nat.le_of_lt h)]
    exact hn
  · exact (Nat.le_mul_of_pos_left _ binade_pos).trans (binade_mul_gap_le (Nat.le_of_not_lt h))

/-- the middle behind a step is less than 2^54 gaps -/
theorem units_add_units_succ_le (n : ℕ) : units n + units (n + 1) ≤ 4 * binade * gap n := by
  have hle := units_le n
  have hpos := binade_pos
  calc units n + units (n + 1) = 2 * units n + gap n := by rw [units_succ]; ring
    _ ≤ 2 * ((2 * binade - 1) * gap n) + 1 * gap n := by omega
    _ = (2 * (2 * binade - 1) + 1) * gap n := by ring
    _ ≤ 4 * binade * gap n := Nat.mul_le_mul_right _ (by omega)

/-- a search starts at a power of ten that is above ten times the step -/
theorem units_lt_bound (n : ℕ) : 10 * units n < 10 ^ bound n * unitsPerOne := by
  have hfinest : finest - 1 = 1074 := by
    have := finest_eq
    omega
  have hdigits : units n / unitsPerOne < 10 ^ (Nat.toDigits 10 (units n / unitsPerOne)).length :=
    (Nat.length_toDigits_le_iff (by decide) Nat.length_toDigits_pos).1 le_rfl
  rw [bound, ← hfinest, ← unitsPerOne, Nat.pow_succ', Nat.mul_assoc]
  exact Nat.mul_lt_mul_of_pos_left ((Nat.div_lt_iff_lt_mul unitsPerOne_pos).1 hdigits) (by decide)

theorem value_eq_mul (c : ℕ) (e : ℤ) : Decimal.value ⟨c, e⟩ = c * Decimal.value ⟨1, e⟩ := by
  simp [Decimal.value]

/-- at the grid that a search starts at only zero is not above the interval of a step -/
theorem coefficient_bound {c : ℕ} (hn : 0 < n) (hc : isInside n (bound n) c = true) : c = 0 := by
  have hhigh := (roundsTo_of_isInside hc).high
  have hgap : (units (n + 1) : ℚ) ≤ 2 * units n := by
    have := gap_le_units hn
    exact_mod_cast (by rw [units_succ]; omega : units (n + 1) ≤ 2 * units n)
  have hbound : (10 * units n : ℚ) < 10 ^ bound n * unitsPerOne := by exact_mod_cast units_lt_bound n
  have hunits : (0 : ℚ) ≤ units n := Nat.cast_nonneg _
  rw [mul_halves, inUnits, Decimal.value, zpow_natCast] at hhigh
  by_contra hne
  have hone : (1 : ℚ) ≤ c := by exact_mod_cast Nat.pos_of_ne_zero hne
  have hpow : (10 : ℚ) ^ bound n * unitsPerOne ≤ c * 10 ^ bound n * unitsPerOne := by
    rw [mul_assoc]
    exact le_mul_of_one_le_left (by linarith) hone
  linarith

/-- if a grid has no candidate, the next finer one has less than 2^58 points below the interval -/
theorem coefficient_of_none {c : ℕ} (hn : 0 < n) (hc : isInside n e c = true) (hnone : candidate? tie n (e + 1) = none) :
    c ≤ 40 * binade := by
  have hhigh := (roundsTo_of_isInside hc).high
  have hscale := scale_pos (e + 1)
  have hprev : units (n - 1) < units n := units_strictMono (Nat.sub_lt hn Nat.one_pos)
  have hcell : (units (n + 1) - units (n - 1)) * scale (e + 1) ≤ cell (e + 1) := by
    refine Nat.le_of_not_lt fun hlt => ?_
    have hsome := candidate?_isSome tie hn hlt
    rw [hnone] at hsome
    cases hsome
  -- the cells of the coarser grid are at least one gap wide
  have hgap : (gap n : ℚ) ≤ 10 * (Decimal.value ⟨1, e⟩ * halves) := by
    refine le_of_mul_le_mul_right ?_ hscale
    have hvalue := value_mul_scale 1 (e + 1)
    rw [Nat.one_mul] at hvalue
    have hten : Decimal.value ⟨1, e + 1⟩ = 10 * Decimal.value ⟨1, e⟩ := by
      simp only [Decimal.value]
      rw [zpow_add_one₀ (by norm_num)]
      ring
    calc (gap n : ℚ) * scale (e + 1) ≤ ((units (n + 1) - units (n - 1)) * scale (e + 1) : ℕ) := by
          exact_mod_cast Nat.mul_le_mul_right _ (by rw [units_succ]; omega)
      _ ≤ cell (e + 1) := by exact_mod_cast hcell
      _ = 10 * (Decimal.value ⟨1, e⟩ * halves) * scale (e + 1) := by rw [← hvalue, hten]; ring
  have hmiddle : (units n + units (n + 1) : ℚ) ≤ 4 * binade * gap n := by
    exact_mod_cast units_add_units_succ_le n
  have hpoint : 0 < Decimal.value ⟨1, e⟩ * halves := by
    have : (0 : ℚ) < gap n := by exact_mod_cast gap_pos n
    linarith
  have hb := binade_ratPos
  have hle : (c : ℚ) * (Decimal.value ⟨1, e⟩ * halves) ≤ 40 * binade * (Decimal.value ⟨1, e⟩ * halves) := by
    calc (c : ℚ) * (Decimal.value ⟨1, e⟩ * halves) = Decimal.value ⟨c, e⟩ * halves := by
          rw [value_eq_mul c e]; ring
      _ ≤ 4 * binade * gap n := hhigh.trans hmiddle
      _ ≤ 4 * binade * (10 * (Decimal.value ⟨1, e⟩ * halves)) := mul_le_mul_of_nonneg_left hgap (by positivity)
      _ = 40 * binade * (Decimal.value ⟨1, e⟩ * halves) := by ring
  exact_mod_cast le_of_mul_le_mul_right hle hpoint

/-- **The coefficient of a shortest decimal is small**, and its exponent is not below that of the least magnitude. -/
theorem shortest_bounds (tie : Tie) (n : ℕ) :
    (shortest tie n).coefficient ≤ 40 * binade ∧ -324 ≤ (shortest tie n).exponent := by
  rcases Nat.eq_zero_or_pos n with rfl | hn
  · rw [shortest, if_pos rfl]
    exact ⟨Nat.zero_le _, by decide⟩
  · obtain ⟨c, e, hshortest, hc, he, hend⟩ := exists_shortest tie hn
    obtain ⟨hcoefficient, hexponent⟩ := Decimal.strip_bounds ⟨c, e⟩
    rw [hshortest]
    refine ⟨hcoefficient.trans ?_, he.trans hexponent⟩
    rcases hend with rfl | hnone
    · rw [coefficient_bound hn hc]
      exact Nat.zero_le _
    · exact coefficient_of_none hn hc hnone

end Magnitude

end BlockTemplates
