/-
How the text of a number is read.

The digits of a canonical text give a number of 64 bits (`printed_bounds`), so that none is dropped, and the reader gets
all of them and the right power of ten: `read_chars`.
-/
import BlockTemplates.Json.Number
import BlockTemplates.Proofs.Number.Size
import BlockTemplates.Proofs.Number.Text

namespace BlockTemplates

/-! ## The decimal of a canonical text -/

namespace Magnitude

/-- the decimal that the canonical text of a step spells out -/
def printed (n : ℕ) : Decimal :=
  Decimal.ofChars ((shortest Layout.canonical.tie n).chars Layout.canonical)

/-- the decimal that is read is the shortest one; only a whole number without an exponent is read with its zeros -/
theorem printed_cases (n : ℕ) : printed n = shortest .toEven n ∨
    (printed n).exponent = -1 ∧ (shortest .toEven n).leadExponent < 16 := by
  rw [printed, Decimal.chars]
  split_ifs with hpositional
  · by_cases h : 0 ≤ (shortest .toEven n).exponent
    · refine .inr ⟨?_, (of_decide_eq_true hpositional).2⟩
      exact congrArg Decimal.exponent (Decimal.ofChars_positional_whole h).1
    · exact .inl (Decimal.ofChars_positional_fraction _ h)
  · exact .inl (Decimal.ofChars_scientific _)

theorem value_printed (n : ℕ) : (printed n).value = (shortest .toEven n).value :=
  Decimal.value_ofChars Layout.canonical _

theorem printed_roundsTo (n : ℕ) : RoundsTo (printed n).value n := by
  rw [value_printed]
  exact shortest_roundsTo .toEven n

end Magnitude

namespace Decimal

/-- a decimal is below the power of ten behind its leading digit -/
theorem value_lt (d : Decimal) : d.value < 10 ^ (d.leadExponent + 1) := by
  have hcoefficient : (d.coefficient : ℚ) < 10 ^ d.digits.length := by exact_mod_cast d.coefficient_lt
  have hlead : d.leadExponent + 1 = d.digits.length + d.exponent := by
    rw [leadExponent]
    ring
  rw [hlead, zpow_add₀ (by norm_num), zpow_natCast, value]
  exact mul_lt_mul_of_pos_right hcoefficient (by positivity)

/-- and not below that of its leading digit -/
theorem le_value {d : Decimal} (h : 0 < d.coefficient) : 10 ^ d.leadExponent ≤ d.value := by
  have hcoefficient : (10 : ℚ) ^ (d.digits.length - 1) ≤ d.coefficient := by exact_mod_cast le_coefficient h
  have hlead : d.leadExponent = (d.digits.length - 1 : ℕ) + d.exponent := by
    have := d.length_digits_pos
    rw [leadExponent]
    omega
  rw [hlead, zpow_add₀ (by norm_num), zpow_natCast, value]
  exact mul_le_mul_of_nonneg_right hcoefficient (by positivity)

end Decimal

namespace Magnitude

/-- a power of ten that is above all finite steps is above what rounds to one -/
theorem RoundsTo.lt_pow {x : ℚ} {n k : ℕ} (h : RoundsTo x n) (hn : n < finiteSteps)
    (hk : units finiteSteps < 10 ^ k * unitsPerOne) : x < 10 ^ k := by
  have hnext : units n + gap n < 10 ^ k * unitsPerOne := by
    rw [← units_succ]
    exact (units_strictMono.monotone hn).trans_lt hk
  have hbelow : (units n + gap n : ℚ) < 10 ^ k * unitsPerOne := by exact_mod_cast hnext
  have hgap : (0 : ℚ) ≤ gap n := Nat.cast_nonneg _
  have hle := h.inUnits_le
  refine lt_of_mul_lt_mul_right ?_ unitsPerOne_ratPos.le
  rw [← inUnits]
  linarith

theorem coefficient_pos {n : ℕ} (hn : 0 < n) {d : Decimal} (h : RoundsTo d.value n) : 0 < d.coefficient := by
  refine Nat.pos_of_ne_zero fun hzero => ?_
  have hlow := h.le_inUnits
  have hpos : (0 : ℚ) < units n := by exact_mod_cast units_zero ▸ units_strictMono hn
  have hprev : (0 : ℚ) ≤ units (n - 1) := Nat.cast_nonneg _
  rw [Decimal.value, hzero, Nat.cast_zero, zero_mul, inUnits, zero_mul] at hlow
  linarith

theorem leadExponent_le {n : ℕ} (hn : n < finiteSteps) : (shortest .toEven n).leadExponent ≤ 308 := by
  rcases Nat.eq_zero_or_pos n with rfl | hpos
  · decide +kernel
  · have hrounds := shortest_roundsTo .toEven n
    have hlt := hrounds.lt_pow (k := 309) hn (by decide +kernel)
    have hle := (Decimal.le_value (coefficient_pos hpos hrounds)).trans_lt hlt
    rw [← zpow_natCast, zpow_lt_zpow_iff_right₀ (by norm_num)] at hle
    exact Int.lt_add_one_iff.1 hle

/-- no digit of a canonical text is beyond 64 bits, and its power of ten is not beyond the greatest finite one -/
theorem printed_bounds {n : ℕ} (hn : n < finiteSteps) : (printed n).coefficient < Json.Numeral.wordBound ∧
    -324 ≤ (printed n).exponent ∧ (printed n).exponent ≤ 308 := by
  have hlead := leadExponent_le hn
  rcases printed_cases n with heq | ⟨hexponent, hsmall⟩
  · obtain ⟨hcoefficient, hlow⟩ := shortest_bounds .toEven n
    have hdigits := (shortest .toEven n).length_digits_pos
    rw [heq]
    refine ⟨hcoefficient.trans_lt (by decide), hlow, ?_⟩
    rw [Decimal.leadExponent] at hlead
    omega
  · refine ⟨?_, by omega, by omega⟩
    have hvalue : (printed n).value < 10 ^ (16 : ℤ) := by
      rw [value_printed]
      refine (Decimal.value_lt _).trans_le (zpow_le_zpow_right₀ (by norm_num) (by omega))
    have hcoefficient : ((printed n).coefficient : ℚ) < 10 ^ 17 := by
      rw [Decimal.value, hexponent] at hvalue
      norm_num at hvalue
      linarith
    have hlt : (printed n).coefficient < 10 ^ 17 := by exact_mod_cast hcoefficient
    exact hlt.trans (by decide)

end Magnitude

/-! ## Reading -/

namespace Json.Numeral

open Decimal

/-- what follows a value in a list or an object -/
def Delimits (r : List Char) : Prop :=
  ∃ c cs, r = c :: cs ∧ (c = ',' ∨ c = ']' ∨ c = '\x7d')

theorem Delimits.startsWithDigit {r : List Char} (h : Delimits r) : startsWithDigit r = false := by
  obtain ⟨c, cs, rfl, rfl | rfl | rfl⟩ := h <;> rfl

theorem startsWithDigit_append {ds : List Char} (h : AllDigits ds) (hne : ds ≠ []) (r : List Char) :
    startsWithDigit (ds ++ r) = true := by
  obtain ⟨c, cs, rfl⟩ := List.exists_cons_of_ne_nil hne
  exact h c List.mem_cons_self

theorem takeWhile_isDigit {r : List Char} (h : startsWithDigit r = false) : r.takeWhile Char.isDigit = [] := by
  cases r with
  | nil => rfl
  | cons c r => exact List.takeWhile_cons_of_neg (by simpa [startsWithDigit] using h)

theorem dropWhile_isDigit {r : List Char} (h : startsWithDigit r = false) : r.dropWhile Char.isDigit = r := by
  cases r with
  | nil => rfl
  | cons c r => exact List.dropWhile_cons_of_neg (by simpa [startsWithDigit] using h)

theorem le_ofDigitChars (ds : List Char) (n : ℕ) : n ≤ Nat.ofDigitChars 10 ds n := by
  induction ds generalizing n with
  | nil => exact le_rfl
  | cons c ds ih =>
    rw [Nat.ofDigitChars_cons]
    have := ih (10 * n + (c.toNat - '0'.toNat))
    omega

/-- digits are taken to the last one, if the number that they give stays below the bound -/
theorem takeDigits_append {bound n : ℕ} {ds r : List Char} (h : AllDigits ds)
    (hbound : Nat.ofDigitChars 10 ds n < bound) (hr : startsWithDigit r = false) :
    takeDigits bound n (ds ++ r) = (Nat.ofDigitChars 10 ds n, ds.length, r) := by
  induction ds generalizing n with
  | nil =>
    cases r with
    | nil => rfl
    | cons c r =>
      rw [List.nil_append, takeDigits, show c.isDigit = false from hr]
      rfl
  | cons c ds ih =>
    have hdigit := h c List.mem_cons_self
    have hnext : n * 10 + (c.toNat - 48) = 10 * n + (c.toNat - '0'.toNat) := by
      rw [Nat.mul_comm]
      rfl
    rw [Nat.ofDigitChars_cons] at hbound ⊢
    have hlt := (le_ofDigitChars ds _).trans_lt hbound
    rw [List.cons_append, takeDigits, hnext, hdigit, decide_eq_true hlt,
      ih (fun c hc => h c (List.mem_cons_of_mem _ hc)) hbound]
    rfl

variable {whole frac exp r : List Char} (negative : Bool)

/-- digits without zeros in front of them are read up to their end -/
theorem read_whole (hw : AllDigits whole) (hne : whole ≠ []) (hzero : whole = ['0'] ∨ whole.head? ≠ some '0')
    (hbound : Nat.ofDigitChars 10 whole 0 < wordBound) (hr : startsWithDigit r = false) :
    read negative (whole ++ r) = afterInteger negative (Nat.ofDigitChars 10 whole 0) r := by
  rcases hzero with rfl | hzero
  · have hread : read negative ('0' :: r) =
        if startsWithDigit r then .error (.inside .invalidNumber r) else afterInteger negative 0 r := rfl
    rw [List.singleton_append, hread, hr, if_neg Bool.false_ne_true]
    rfl
  · obtain ⟨c, cs, rfl⟩ := List.exists_cons_of_ne_nil hne
    have hdigit : c.isDigit = true := hw c List.mem_cons_self
    have htake := takeDigits_append hw hbound hr
    rw [List.cons_append] at htake ⊢
    unfold read
    split
    · next h => cases h
    · next h =>
      cases h
      exact absurd rfl hzero
    · next h =>
      cases h
      simp only [hdigit, htake, takeWhile_isDigit hr, Bool.not_true, Bool.false_eq_true, if_false, List.isEmpty_nil,
        if_true]

theorem fraction_append (hf : AllDigits frac) (hne : frac ≠ []) {n : ℕ} (base : ℤ)
    (hbound : Nat.ofDigitChars 10 frac n < wordBound) (hr : startsWithDigit r = false) :
    fraction negative n base (frac ++ r) = afterDigits negative (Nat.ofDigitChars 10 frac n) (base - frac.length) r := by
  simp only [fraction, startsWithDigit_append hf hne, takeDigits_append hf hbound hr, dropWhile_isDigit hr,
    Bool.not_true, Bool.false_eq_true, if_false]

theorem exponent_append (e : ℤ) (he : e.natAbs < exponentBound) (significand : ℕ) (base : ℤ)
    (hr : startsWithDigit r = false) :
    exponent negative significand base ((if e < 0 then '-' else '+') :: (Nat.toDigits 10 e.natAbs ++ r)) =
      float? negative significand (base + e) r := by
  have hdigits : AllDigits (Nat.toDigits 10 e.natAbs) := fun _ h => Nat.isDigit_of_mem_toDigits (by decide) (by decide) h
  have hne : Nat.toDigits 10 e.natAbs ≠ [] := List.ne_nil_of_length_pos Nat.length_toDigits_pos
  have hvalue : Nat.ofDigitChars 10 (Nat.toDigits 10 e.natAbs) 0 = e.natAbs := Nat.ofDigitChars_ten_toDigits
  have htake := takeDigits_append hdigits (hvalue ▸ he) hr
  have hempty : (Nat.toDigits 10 e.natAbs ++ r).isEmpty = false := by
    rw [List.isEmpty_eq_false_iff]
    exact List.append_ne_nil_of_left_ne_nil hne r
  split_ifs with hneg
  · simp only [exponent, hempty, startsWithDigit_append hdigits hne, htake, hvalue, hr, Bool.not_true,
      Bool.false_eq_true, if_false, if_true]
    congr 1
    omega
  · simp only [exponent, hempty, startsWithDigit_append hdigits hne, htake, hvalue, hr, Bool.not_true,
      Bool.false_eq_true, if_false]
    congr 1
    omega

/-- a number with a fraction is read up to the last digit of it -/
theorem read_point (hw : AllDigits whole) (hne : whole ≠ []) (hzero : whole = ['0'] ∨ whole.head? ≠ some '0')
    (hf : AllDigits frac) (hfne : frac ≠ []) (hbound : Nat.ofDigitChars 10 (whole ++ frac) 0 < wordBound)
    (hr : startsWithDigit r = false) : read negative (whole ++ '.' :: (frac ++ r)) =
      afterDigits negative (Nat.ofDigitChars 10 (whole ++ frac) 0) (-frac.length) r := by
  rw [Nat.ofDigitChars_append] at hbound ⊢
  have hwhole := (le_ofDigitChars frac _).trans_lt hbound
  have hread := read_whole negative hw hne hzero hwhole (r := '.' :: (frac ++ r)) rfl
  have hfraction := fraction_append negative hf hfne 0 hbound hr
  rw [zero_sub] at hfraction
  rw [hread, ← hfraction]
  rfl

/-- the digits of a positive number do not start with a zero -/
theorem head?_toDigits {n : ℕ} (h : 0 < n) : (Nat.toDigits 10 n).head? ≠ some '0' := by
  induction n using Nat.strongRecOn with
  | _ n ih =>
    rw [Nat.toDigits_eq_if (by decide)]
    split_ifs with hlt
    · interval_cases n <;> decide
    · have hne : Nat.toDigits 10 (n / 10) ≠ [] := List.ne_nil_of_length_pos Nat.length_toDigits_pos
      rw [List.head?_append_of_ne_nil _ hne]
      exact ih (n / 10) (by omega) (by omega)

theorem float_of_delimits {significand : ℕ} {base : ℤ} (hr : Delimits r) :
    afterDigits negative significand base r = float? negative significand base r := by
  obtain ⟨c, cs, rfl, rfl | rfl | rfl⟩ := hr <;> rfl

theorem read_positional {d : Decimal} (hd : 0 < d.coefficient)
    (hbound : (ofChars (d.positional true)).coefficient < wordBound) (hr : Delimits r) :
    read negative (d.positional true ++ r) =
      float? negative (ofChars (d.positional true)).coefficient (ofChars (d.positional true)).exponent r := by
  have hdigits := d.allDigits_digits
  have hpos := d.length_digits_pos
  have hhead : d.digits.head? ≠ some '0' := head?_toDigits hd
  have hlead : d.leadExponent = d.exponent + d.digits.length - 1 := rfl
  have key : ∀ {whole frac : List Char}, AllDigits whole → whole ≠ [] → (whole = ['0'] ∨ whole.head? ≠ some '0') →
      AllDigits frac → frac ≠ [] → d.positional true = whole ++ '.' :: frac →
        read negative (d.positional true ++ r) =
          float? negative (ofChars (d.positional true)).coefficient (ofChars (d.positional true)).exponent r := by
    intro whole frac hw hne hzero hf hfne htext
    rw [htext, ofChars_point hw hf] at hbound ⊢
    rw [List.append_assoc, List.cons_append, read_point negative hw hne hzero hf hfne hbound hr.startsWithDigit,
      float_of_delimits negative hr]
  by_cases hwhole : 0 ≤ d.exponent
  · refine key (hdigits.append (allDigits_replicate d.exponent.toNat)) ?_ (.inr ?_) allDigits_zero (by decide) ?_
    · exact List.append_ne_nil_of_left_ne_nil (List.ne_nil_of_length_pos hpos) _
    · rwa [List.head?_append_of_ne_nil _ (List.ne_nil_of_length_pos hpos)]
    · rw [positional, if_pos hwhole, if_pos rfl]
  by_cases hpoint : 0 ≤ d.leadExponent
  · have htake : AllDigits (d.digits.take (d.leadExponent + 1).toNat) := fun c h => hdigits c (List.mem_of_mem_take h)
    have hdrop : AllDigits (d.digits.drop (d.leadExponent + 1).toNat) := fun c h => hdigits c (List.mem_of_mem_drop h)
    refine key htake ?_ (.inr ?_) hdrop ?_ ?_
    · exact List.ne_nil_of_length_pos (by rw [List.length_take]; omega)
    · rwa [List.head?_take, if_neg (by omega)]
    · exact List.ne_nil_of_length_pos (by rw [List.length_drop]; omega)
    · rw [positional, if_neg hwhole, if_pos hpoint]
  · refine key allDigits_zero (by decide) (.inl rfl) ((allDigits_replicate (-d.leadExponent - 1).toNat).append hdigits)
      ?_ ?_
    · exact List.append_ne_nil_of_right_ne_nil _ (List.ne_nil_of_length_pos hpos)
    · rw [positional, if_neg hwhole, if_neg hpoint]
      rfl

theorem read_scientific {d : Decimal} (hd : 0 < d.coefficient) (hbound : d.coefficient < wordBound)
    (hexponent : d.leadExponent.natAbs < exponentBound) (hr : Delimits r) :
    read negative (d.scientific ++ r) = float? negative d.coefficient d.exponent r := by
  have hdigits := d.allDigits_digits
  have hpos := d.length_digits_pos
  have hvalue := d.ofDigitChars_digits
  have hhead : d.digits.head? ≠ some '0' := head?_toDigits hd
  have hlead : d.leadExponent = d.exponent + d.digits.length - 1 := rfl
  set behind := (if d.leadExponent < 0 then '-' else '+') :: Nat.toDigits 10 d.leadExponent.natAbs with hbehind
  have hread : ∀ base : ℤ, exponent negative d.coefficient base (behind ++ r) =
      float? negative d.coefficient (base + d.leadExponent) r :=
    fun base => exponent_append negative d.leadExponent hexponent d.coefficient base hr.startsWithDigit
  unfold scientific
  split
  · next digit hone =>
    rw [hone] at hdigits hvalue hhead hlead
    calc read negative ([digit] ++ 'e' :: behind ++ r)
        = afterInteger negative d.coefficient ('e' :: (behind ++ r)) := by
          rw [← hvalue, List.append_assoc, List.cons_append]
          exact read_whole negative hdigits (by simp) (.inr hhead) (hvalue ▸ hbound) rfl
      _ = float? negative d.coefficient (0 + d.leadExponent) r := hread 0
      _ = float? negative d.coefficient d.exponent r := by
          rw [List.length_singleton] at hlead
          congr 1
          omega
  · next digit more hmore hmany =>
    rw [hmany] at hdigits hvalue hhead hlead
    have hfirst : AllDigits [digit] := fun c h => hdigits c (List.mem_singleton.1 h ▸ List.mem_cons_self)
    have hrest : AllDigits more := fun c h => hdigits c (List.mem_cons_of_mem _ h)
    have hne : more ≠ [] := by
      rintro rfl
      exact hmore rfl
    calc read negative ([digit] ++ '.' :: more ++ 'e' :: behind ++ r)
        = afterDigits negative d.coefficient (-more.length) ('e' :: (behind ++ r)) := by
          rw [← hvalue, List.append_assoc, List.append_assoc, List.cons_append, List.cons_append]
          exact read_point negative hfirst (by simp) (.inr hhead) hrest hne (hvalue ▸ hbound) rfl
      _ = float? negative d.coefficient (-more.length + d.leadExponent) r := hread _
      _ = float? negative d.coefficient d.exponent r := by
          rw [List.length_cons] at hlead
          congr 1
          push_cast at hlead
          omega
  · next hnil => simp [hnil] at hpos

/-- **The canonical text of a decimal is read digit by digit**: the reader gets the decimal that the text spells out. -/
theorem read_chars {d : Decimal} (hd : 0 < d.coefficient)
    (hbound : (ofChars (d.chars Layout.canonical)).coefficient < wordBound)
    (hexponent : d.leadExponent.natAbs < exponentBound) (hr : Delimits r) :
    read negative (d.chars Layout.canonical ++ r) = float? negative (ofChars (d.chars Layout.canonical)).coefficient
      (ofChars (d.chars Layout.canonical)).exponent r := by
  unfold chars at hbound ⊢
  split_ifs at hbound ⊢ with hpositional
  · exact read_positional negative hd hbound hr
  · rw [ofChars_scientific] at hbound ⊢
    exact read_scientific negative hd hbound hexponent hr

end Json.Numeral

end BlockTemplates
