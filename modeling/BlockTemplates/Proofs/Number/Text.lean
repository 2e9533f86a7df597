/-
A number can be told from its text.

`Decimal.ofChars` reads the digits, the point and the exponent of a decimal. Whatever the format, the text of a decimal
is read back with the same value (`value_ofChars`), and the shortest decimals of different magnitudes have different
values, so finite numbers can be told from their texts (`chars_injective`), the two zeros included. The texts hold
nothing but `isNumberChar`s (`isNumberChar_of_mem_chars`).
-/
import Mathlib.Data.List.TakeWhile
import BlockTemplates.Number.Layout
import BlockTemplates.Proofs.Number.Rounding

namespace BlockTemplates

/-- a character of a finite number's text -/
def isNumberChar (c : Char) : Bool :=
  c.isDigit || c == '.' || c == 'e' || c == '-' || c == '+'

namespace Decimal

/-! ## Reading a decimal -/

/-- the exponent behind an `e`: a sign and digits -/
def exponentOfChars : List Char → ℤ
  | [] => 0
  | sign :: digits => if sign = '-' then -Nat.ofDigitChars 10 digits 0 else Nat.ofDigitChars 10 digits 0

/-- the decimal of a text: digits with a point among them or not, with an exponent behind them or not -/
def ofChars (cs : List Char) : Decimal :=
  let mantissa := cs.takeWhile (· != 'e')
  let whole := mantissa.takeWhile (· != '.')
  let fraction := (mantissa.dropWhile (· != '.')).tail
  let exponent := exponentOfChars (cs.dropWhile (· != 'e')).tail
  ⟨Nat.ofDigitChars 10 (whole ++ fraction) 0, exponent - fraction.length⟩

def AllDigits (cs : List Char) : Prop :=
  ∀ c ∈ cs, c.isDigit = true

theorem AllDigits.ne {cs : List Char} (h : AllDigits cs) {c : Char} (hc : c.isDigit = false) :
    ∀ d ∈ cs, (d != c) = true := by
  intro d hd
  have := h d hd
  simp only [bne_iff_ne, ne_eq]
  rintro rfl
  simp [hc] at this

theorem AllDigits.append {cs ds : List Char} (hc : AllDigits cs) (hd : AllDigits ds) : AllDigits (cs ++ ds) := by
  intro c h
  rcases List.mem_append.1 h with h | h
  · exact hc c h
  · exact hd c h

theorem allDigits_digits (d : Decimal) : AllDigits d.digits :=
  fun _ h => Nat.isDigit_of_mem_toDigits (by decide) (by decide) h

theorem allDigits_zero : AllDigits ['0'] := by
  intro c h
  rw [List.eq_of_mem_singleton h]
  rfl

theorem allDigits_replicate (k : ℕ) : AllDigits (List.replicate k '0') := by
  intro c h
  rw [List.eq_of_mem_replicate h]
  rfl

theorem ofDigitChars_digits (d : Decimal) : Nat.ofDigitChars 10 d.digits 0 = d.coefficient :=
  Nat.ofDigitChars_ten_toDigits

theorem length_digits_pos (d : Decimal) : 0 < d.digits.length :=
  Nat.length_toDigits_pos

theorem ofChars_digits {whole : List Char} (h : AllDigits whole) :
    ofChars whole = ⟨Nat.ofDigitChars 10 whole 0, 0⟩ := by
  have he : whole.takeWhile (· != 'e') = whole := List.takeWhile_eq_self_iff.2 (h.ne (by decide))
  have hp : whole.takeWhile (· != '.') = whole := List.takeWhile_eq_self_iff.2 (h.ne (by decide))
  have he' : whole.dropWhile (· != 'e') = [] := List.dropWhile_eq_nil_iff.2 (h.ne (by decide))
  have hp' : whole.dropWhile (· != '.') = [] := List.dropWhile_eq_nil_iff.2 (h.ne (by decide))
  simp [ofChars, he, hp, he', hp', exponentOfChars]

theorem ofChars_point {whole fraction : List Char} (hw : AllDigits whole) (hf : AllDigits fraction) :
    ofChars (whole ++ '.' :: fraction) = ⟨Nat.ofDigitChars 10 (whole ++ fraction) 0, -fraction.length⟩ := by
  have hall : ∀ c ∈ whole ++ '.' :: fraction, (c != 'e') = true := by
    intro c hc
    rcases List.mem_append.1 hc with h | h
    · exact hw.ne (by decide) c h
    · rcases List.mem_cons.1 h with rfl | h
      · decide
      · exact hf.ne (by decide) c h
  have he := List.takeWhile_eq_self_iff.2 hall
  have he' := List.dropWhile_eq_nil_iff.2 hall
  have hp : (whole ++ '.' :: fraction).takeWhile (· != '.') = whole := by
    rw [List.takeWhile_append_of_pos (hw.ne (by decide))]
    simp
  have hp' : (whole ++ '.' :: fraction).dropWhile (· != '.') = '.' :: fraction := by
    rw [List.dropWhile_append_of_pos (hw.ne (by decide))]
    simp
  simp [ofChars, he, hp, he', hp', exponentOfChars]

theorem ofChars_exponent {mantissa exponent : List Char} (h : ∀ c ∈ mantissa, (c != 'e') = true) :
    ofChars (mantissa ++ 'e' :: exponent) =
      ⟨(ofChars mantissa).coefficient, (ofChars mantissa).exponent + exponentOfChars exponent⟩ := by
  have he : (mantissa ++ 'e' :: exponent).takeWhile (· != 'e') = mantissa := by
    rw [List.takeWhile_append_of_pos h]
    simp
  have he' : (mantissa ++ 'e' :: exponent).dropWhile (· != 'e') = 'e' :: exponent := by
    rw [List.dropWhile_append_of_pos h]
    simp
  have hself := List.takeWhile_eq_self_iff.2 h
  have hself' := List.dropWhile_eq_nil_iff.2 h
  simp only [ofChars, he, he', hself, hself', List.tail_cons, List.tail_nil, exponentOfChars]
  congr 1
  omega

/-! ## Every format keeps the value -/

theorem value_of_shift (c k : ℕ) (e : ℤ) : value ⟨10 ^ k * c, e⟩ = value ⟨c, e + k⟩ := by
  simp only [value]
  rw [zpow_add₀ (by norm_num), zpow_natCast]
  push_cast
  ring

theorem ofDigitChars_zeros (c k : ℕ) : Nat.ofDigitChars 10 (List.replicate k '0') c = 10 ^ k * c :=
  Nat.ofDigitChars_replicate_zero

/-- without an exponent the digits of a whole number are read with the zeros behind them -/
theorem ofChars_positional_whole {d : Decimal} (h : 0 ≤ d.exponent) :
    ofChars (d.positional true) = ⟨10 ^ (d.exponent.toNat + 1) * d.coefficient, -1⟩ ∧
      ofChars (d.positional false) = ⟨10 ^ d.exponent.toNat * d.coefficient, 0⟩ := by
  have hzeros : AllDigits (d.digits ++ List.replicate d.exponent.toNat '0') :=
    d.allDigits_digits.append (allDigits_replicate _)
  have hlast : List.replicate d.exponent.toNat '0' ++ ['0'] = List.replicate (d.exponent.toNat + 1) '0' :=
    List.replicate_succ'.symm
  constructor
  · rw [positional, if_pos h, if_pos rfl, ofChars_point hzeros allDigits_zero, List.append_assoc, hlast,
      Nat.ofDigitChars_append, ofDigitChars_digits, ofDigitChars_zeros]
    rfl
  · rw [positional, if_pos h, if_neg Bool.false_ne_true, List.append_nil, ofChars_digits hzeros,
      Nat.ofDigitChars_append, ofDigitChars_digits, ofDigitChars_zeros]

/-- a number with a fraction is read digit by digit -/
theorem ofChars_positional_fraction {d : Decimal} (wholeFraction : Bool) (h : ¬0 ≤ d.exponent) :
    ofChars (d.positional wholeFraction) = d := by
  have hdigits := d.allDigits_digits
  have hpos := d.length_digits_pos
  have hlead : d.leadExponent = d.exponent + d.digits.length - 1 := rfl
  have heq : ∀ e : ℤ, e = d.exponent → (⟨d.coefficient, e⟩ : Decimal) = d := by
    rintro _ rfl
    rfl
  rw [positional, if_neg h]
  split_ifs with hpoint
  · -- the point stands among the digits
    dsimp only
    have htake : AllDigits (d.digits.take (d.leadExponent + 1).toNat) := fun c h => hdigits c (List.mem_of_mem_take h)
    have hdrop : AllDigits (d.digits.drop (d.leadExponent + 1).toNat) := fun c h => hdigits c (List.mem_of_mem_drop h)
    rw [ofChars_point htake hdrop, List.take_append_drop, ofDigitChars_digits, List.length_drop]
    exact heq _ (by omega)
  · -- zeros stand between the point and the digits
    have hzeros : AllDigits (List.replicate (-d.leadExponent - 1).toNat '0' ++ d.digits) :=
      (allDigits_replicate _).append hdigits
    have hfirst : ['0'] ++ List.replicate (-d.leadExponent - 1).toNat '0' =
        List.replicate ((-d.leadExponent - 1).toNat + 1) '0' := List.replicate_succ.symm
    have htext : '0' :: '.' :: (List.replicate (-d.leadExponent - 1).toNat '0' ++ d.digits) =
        ['0'] ++ '.' :: (List.replicate (-d.leadExponent - 1).toNat '0' ++ d.digits) := rfl
    rw [htext, ofChars_point allDigits_zero hzeros, ← List.append_assoc, hfirst, Nat.ofDigitChars_append,
      ofDigitChars_zeros, Nat.mul_zero, ofDigitChars_digits]
    refine heq _ ?_
    simp only [List.length_append, List.length_replicate]
    omega

theorem exponentOfChars_sign (e : ℤ) :
    exponentOfChars ((if e < 0 then '-' else '+') :: Nat.toDigits 10 e.natAbs) = e := by
  simp only [exponentOfChars, Nat.ofDigitChars_ten_toDigits]
  split_ifs with h h' h'
  · omega
  · exact absurd rfl h'
  · exact absurd h' (by decide)
  · omega

/-- so is a number with an exponent -/
theorem ofChars_scientific (d : Decimal) : ofChars d.scientific = d := by
  have hdigits := d.allDigits_digits
  have hvalue := d.ofDigitChars_digits
  have hlead : d.leadExponent = d.exponent + d.digits.length - 1 := rfl
  have hpos := d.length_digits_pos
  have heq : ∀ e : ℤ, e = d.exponent → (⟨d.coefficient, e⟩ : Decimal) = d := by
    rintro _ rfl
    rfl
  unfold scientific
  split
  · next digit hd =>
    rw [hd] at hdigits hvalue hlead
    rw [ofChars_exponent (hdigits.ne (by decide)), ofChars_digits hdigits, exponentOfChars_sign, hvalue]
    refine heq _ ?_
    simp only [List.length_singleton] at hlead ⊢
    omega
  · next digit more _ hd =>
    rw [hd] at hdigits hvalue hlead
    have hfirst : AllDigits [digit] := fun c h => hdigits c (by simp_all)
    have hmore : AllDigits more := fun c h => hdigits c (List.mem_cons_of_mem _ h)
    have hall : ∀ c ∈ [digit] ++ '.' :: more, (c != 'e') = true := by
      intro c hc
      rcases List.mem_append.1 hc with h | h
      · exact hfirst.ne (by decide) c h
      · rcases List.mem_cons.1 h with rfl | h
        · decide
        · exact hmore.ne (by decide) c h
    have htext : digit :: '.' :: more = [digit] ++ '.' :: more := rfl
    rw [htext, ofChars_exponent hall, ofChars_point hfirst hmore, exponentOfChars_sign, List.singleton_append, hvalue]
    refine heq _ ?_
    simp only [List.length_cons] at hlead ⊢
    omega
  · next hd => simp [hd] at hpos

/-- **Whatever the format, the text of a decimal is read with the decimal's value.** -/
theorem value_ofChars (layout : Layout) (d : Decimal) : (ofChars (d.chars layout)).value = d.value := by
  unfold chars
  split_ifs
  · by_cases h : 0 ≤ d.exponent
    · obtain ⟨htrue, hfalse⟩ := ofChars_positional_whole h
      cases layout.wholeFraction
      · rw [hfalse, value_of_shift, zero_add, Int.toNat_of_nonneg h]
      · rw [htrue, value_of_shift, Nat.cast_succ, Int.toNat_of_nonneg h, neg_add_cancel_comm_assoc]
    · rw [ofChars_positional_fraction _ h]
  · rw [ofChars_scientific]

/-! ## The characters of a text -/

theorem AllDigits.isNumberChar {cs : List Char} (h : AllDigits cs) : ∀ c ∈ cs, isNumberChar c = true := by
  intro c hc
  simp [BlockTemplates.isNumberChar, h c hc]

theorem isNumberChar_of_mem_positional (wholeFraction : Bool) (d : Decimal) :
    ∀ c ∈ d.positional wholeFraction, isNumberChar c = true := by
  have hdigits := d.allDigits_digits.isNumberChar
  have hzeros := fun k => (allDigits_replicate k).isNumberChar
  intro c hc
  unfold positional at hc
  split_ifs at hc
  · rw [List.append_assoc] at hc
    rcases List.mem_append.1 hc with h | h
    · exact hdigits c h
    · rcases List.mem_append.1 h with h | h
      · exact hzeros _ c h
      · fin_cases h <;> rfl
  · rw [List.append_nil] at hc
    rcases List.mem_append.1 hc with h | h
    · exact hdigits c h
    · exact hzeros _ c h
  · rcases List.mem_append.1 hc with h | h
    · exact hdigits c (List.mem_of_mem_take h)
    · rcases List.mem_cons.1 h with rfl | h
      · rfl
      · exact hdigits c (List.mem_of_mem_drop h)
  · rcases List.mem_cons.1 hc with rfl | h
    · rfl
    · rcases List.mem_cons.1 h with rfl | h
      · rfl
      · rcases List.mem_append.1 h with h | h
        · exact hzeros _ c h
        · exact hdigits c h

theorem isNumberChar_of_mem_scientific (d : Decimal) : ∀ c ∈ d.scientific, isNumberChar c = true := by
  have hdigits := d.allDigits_digits.isNumberChar
  have hexponent : ∀ c ∈ Nat.toDigits 10 d.leadExponent.natAbs, isNumberChar c = true :=
    AllDigits.isNumberChar fun _ h => Nat.isDigit_of_mem_toDigits (by decide) (by decide) h
  have htail : ∀ c ∈ 'e' :: (if d.leadExponent < 0 then '-' else '+') :: Nat.toDigits 10 d.leadExponent.natAbs,
      isNumberChar c = true := by
    intro c hc
    rcases List.mem_cons.1 hc with rfl | h
    · rfl
    · rcases List.mem_cons.1 h with rfl | h
      · split_ifs <;> rfl
      · exact hexponent c h
  intro c hc
  rcases List.mem_append.1 hc with h | h
  · split at h
    · next digit hd => exact hdigits c (hd ▸ h)
    · next digit more _ hd =>
      rw [hd] at hdigits
      rcases List.mem_cons.1 h with rfl | h
      · exact hdigits _ List.mem_cons_self
      · rcases List.mem_cons.1 h with rfl | h
        · rfl
        · exact hdigits c (List.mem_cons_of_mem _ h)
    · cases h
  · exact htail c h

theorem isNumberChar_of_mem_chars (layout : Layout) (d : Decimal) : ∀ c ∈ d.chars layout, isNumberChar c = true := by
  unfold chars
  split_ifs
  · exact isNumberChar_of_mem_positional _ d
  · exact isNumberChar_of_mem_scientific d

/-- the text of a decimal starts with a digit -/
theorem chars_eq_cons (layout : Layout) (d : Decimal) : ∃ c cs, d.chars layout = c :: cs ∧ c.isDigit = true := by
  obtain ⟨digit, more, hd⟩ := List.exists_cons_of_length_pos d.length_digits_pos
  have hdigit : digit.isDigit = true := d.allDigits_digits digit (hd ▸ List.mem_cons_self)
  unfold chars
  split_ifs
  · unfold positional
    split_ifs with hwhole hfraction hpoint
    · exact ⟨digit, _, by rw [hd, List.cons_append, List.cons_append], hdigit⟩
    · exact ⟨digit, _, by rw [hd, List.cons_append, List.cons_append], hdigit⟩
    · obtain ⟨k, hk⟩ : ∃ k, (d.leadExponent + 1).toNat = k + 1 := ⟨d.leadExponent.toNat, by omega⟩
      exact ⟨digit, _, by dsimp only; rw [hk, hd, List.take_succ_cons, List.cons_append], hdigit⟩
    · exact ⟨'0', _, rfl, rfl⟩
  · unfold scientific
    rw [hd]
    cases more with
    | nil => exact ⟨digit, _, rfl, hdigit⟩
    | cons _ _ => exact ⟨digit, _, rfl, hdigit⟩

end Decimal

namespace Number

/-! ## Numbers -/

theorem isNumberChar_of_mem_chars (layout : Layout) (negative : Bool) (step : Fin Magnitude.finiteSteps) :
    ∀ c ∈ (finite negative step).chars layout, isNumberChar c = true := by
  intro c hc
  rcases List.mem_append.1 hc with h | h
  · cases negative with
    | true => rw [List.eq_of_mem_singleton h]; rfl
    | false => cases h
  · exact Decimal.isNumberChar_of_mem_chars layout _ c h

theorem chars_ne_nil (layout : Layout) (negative : Bool) (step : Fin Magnitude.finiteSteps) :
    (finite negative step).chars layout ≠ [] := by
  obtain ⟨c, cs, h, -⟩ := Decimal.chars_eq_cons layout (Magnitude.shortest layout.tie step)
  simp [chars, h]

/-- **In every format a finite number can be told from its text**, also the zeros from one another. -/
theorem chars_injective (layout : Layout) {a b : Bool} {m n : Fin Magnitude.finiteSteps}
    (h : (finite a m).chars layout = (finite b n).chars layout) : finite a m = finite b n := by
  obtain ⟨c, cs, hc, hdigit⟩ := Decimal.chars_eq_cons layout (Magnitude.shortest layout.tie m)
  obtain ⟨d, ds, hd, hdigit'⟩ := Decimal.chars_eq_cons layout (Magnitude.shortest layout.tie n)
  have hsign : ∀ {x : Char}, x.isDigit = true → x ≠ '-' := by rintro _ hx rfl; cases hx
  have hmagnitude : (Magnitude.shortest layout.tie m).chars layout = (Magnitude.shortest layout.tie n).chars layout →
      m = n := by
    intro h
    apply Fin.ext
    refine Magnitude.eq_of_value_shortest_eq layout.tie ?_
    rw [← Decimal.value_ofChars layout, h, Decimal.value_ofChars layout]
  cases a <;> cases b
  · rw [hmagnitude h]
  · have : c = '-' := by simp [chars, hc] at h; exact h.1
    exact absurd this (hsign hdigit)
  · have : d = '-' := by simp [chars, hd] at h; exact h.1.symm
    exact absurd this (hsign hdigit')
  · rw [hmagnitude (List.cons.inj h).2]

end Number

end BlockTemplates
