/-
JSON texts of values are uniquely decodable.

What is written for a value and followed by something that cannot go on with a number is written for no other value and
ends at the same place. Strings are recovered by the reader of quoted text (`read_flatMap_escapeChar`), numbers by
their digits (`Number.chars_injective`); every other kind of value shows in its first character (`kindOf`).

Results:
- `value_append_inj`: two finite values with equal texts, with anything behind them that ends a value, are equal, and so
  is what stands behind them.
- `value_injective`: the canonical JSON of finite values is injective.
-/
import BlockTemplates.Json.Quotation
import BlockTemplates.Json.Text
import BlockTemplates.Proofs.Number.Text

namespace BlockTemplates

namespace Json

/-! ## Strings -/

theorem hexValue?_hexDigit {n : ℕ} (h : n < 16) : Text.hexValue? (hexDigit n) = some n := by
  interval_cases n <;> rfl

/-- what is written for one character is read as that character -/
theorem read_escapeChar_append (c : Char) (cs : List Char) :
    Quotation.read (escapeChar c ++ cs) = Quotation.cons c (Quotation.read cs) := by
  unfold escapeChar
  split_ifs with hquote hslash hline hreturn htab hback hfeed hcontrol
  · subst hquote; rfl
  · subst hslash; rfl
  · subst hline; rfl
  · subst hreturn; rfl
  · subst htab; rfl
  · rw [← Char.ofNat_toNat c, hback]; rfl
  · rw [← Char.ofNat_toNat c, hfeed]; rfl
  · have hzero : Text.hexValue? '0' = some 0 := rfl
    have hunit : Text.hexNumber? ['0', '0', hexDigit (c.toNat / 16), hexDigit (c.toNat % 16)] = some c.toNat := by
      have hhigh := hexValue?_hexDigit (show c.toNat / 16 < 16 by omega)
      have hlow := hexValue?_hexDigit (Nat.mod_lt c.toNat (by decide : 0 < 16))
      simp only [Text.hexNumber?, List.foldlM_cons, List.foldlM_nil, hzero, hhigh, hlow, Option.map_some,
        Option.bind_eq_bind, Option.bind_some, Option.pure_def, Option.some.injEq]
      omega
    have htrail : Quotation.isTrail c.toNat = false := by simp [Quotation.isTrail]; omega
    have hlead : Quotation.isLead c.toNat = false := by simp [Quotation.isLead]; omega
    simp [Quotation.read, hunit, htrail, hlead]
  · rw [List.singleton_append, Quotation.read]
    · rw [if_neg (by omega)]
    all_goals simp_all

theorem read_flatMap_escapeChar (cs rest : List Char) :
    Quotation.read (cs.flatMap escapeChar ++ '"' :: rest) = .ok (cs, rest) := by
  induction cs with
  | nil => rfl
  | cons c cs ih => rw [List.flatMap_cons, List.append_assoc, read_escapeChar_append, ih]; rfl

theorem string_append_inj {cs ds r s : List Char} (h : string cs ++ r = string ds ++ s) : cs = ds ∧ r = s := by
  have htail : cs.flatMap escapeChar ++ '"' :: r = ds.flatMap escapeChar ++ '"' :: s := by
    simpa [string] using h
  have hread := congrArg Quotation.read htail
  rw [read_flatMap_escapeChar, read_flatMap_escapeChar] at hread
  simpa using hread

/-! ## Numbers -/

/-- nothing that follows can go on with a number -/
def EndsNumber (rest : List Char) : Prop :=
  ∀ c ∈ rest.head?, isNumberChar c = false

theorem endsNumber_nil : EndsNumber [] := by
  intro c h
  cases h

theorem endsNumber_cons {c : Char} (h : isNumberChar c = false) (rest : List Char) : EndsNumber (c :: rest) := by
  rintro d ⟨⟩
  exact h

theorem takeWhile_isNumberChar {cs r : List Char} (h : ∀ c ∈ cs, isNumberChar c = true) (hr : EndsNumber r) :
    (cs ++ r).takeWhile isNumberChar = cs := by
  rw [List.takeWhile_append_of_pos h]
  cases r with
  | nil => simp
  | cons c r => simp [hr c rfl]

theorem number_append_inj {x y : Number} {r s : List Char} (hx : x.isFinite = true) (hy : y.isFinite = true)
    (hr : EndsNumber r) (hs : EndsNumber s) (h : number x ++ r = number y ++ s) : x = y ∧ r = s := by
  cases x with
  | nan => cases hx
  | infinite _ => cases hx
  | finite a m =>
    cases y with
    | nan => cases hy
    | infinite _ => cases hy
    | finite b n =>
      have htext : (Number.finite a m).chars Layout.canonical = (Number.finite b n).chars Layout.canonical := by
        have htake := congrArg (List.takeWhile isNumberChar) h
        simp only [number] at htake
        rwa [takeWhile_isNumberChar (Number.isNumberChar_of_mem_chars _ a m) hr,
          takeWhile_isNumberChar (Number.isNumberChar_of_mem_chars _ b n) hs] at htake
      have hrest : number (.finite b n) ++ r = number (.finite b n) ++ s := by
        rwa [show number (.finite a m) = number (.finite b n) from htext] at h
      exact ⟨Number.chars_injective Layout.canonical htext, List.append_cancel_left hrest⟩

/-! ## The first character -/

inductive Kind where
  | bool
  | number
  | string
  | list
  | map
  deriving DecidableEq

/-- the kind of value whose text starts with a character -/
def kindOf (c : Char) : Option Kind :=
  if c = '"' then some .string
  else if c = '[' then some .list
  else if c = '\x7b' then some .map
  else if c = 't' ∨ c = 'f' then some .bool
  else if isNumberChar c then some .number
  else none

def kind : Value → Kind
  | .bool _ => .bool
  | .number _ => .number
  | .string _ => .string
  | .list _ => .list
  | .map _ => .map

theorem kindOf_numberChar {c : Char} (h : isNumberChar c = true) : kindOf c = some .number := by
  have hne : ∀ d : Char, isNumberChar d = false → c ≠ d := by
    rintro d hd rfl
    rw [hd] at h
    cases h
  rw [kindOf, if_neg (hne _ (by decide)), if_neg (hne _ (by decide)), if_neg (hne _ (by decide)),
    if_neg (not_or.2 ⟨hne _ (by decide), hne _ (by decide)⟩), if_pos h]

theorem value_eq_cons {v : Value} (h : v.notFinite? = none) :
    ∃ c cs, value v = c :: cs ∧ kindOf c = some (kind v) := by
  cases v with
  | bool b => cases b <;> exact ⟨_, _, rfl, rfl⟩
  | string s => exact ⟨_, _, rfl, rfl⟩
  | list items => exact ⟨_, _, rfl, rfl⟩
  | map entries => exact ⟨_, _, rfl, rfl⟩
  | number x =>
    cases x with
    | nan => cases h
    | infinite _ => cases h
    | finite a m =>
      obtain ⟨c, cs, hc⟩ := List.exists_cons_of_ne_nil (Number.chars_ne_nil Layout.canonical a m)
      have hchar := Number.isNumberChar_of_mem_chars Layout.canonical a m c (hc ▸ List.mem_cons_self)
      exact ⟨c, cs, hc, kindOf_numberChar hchar⟩

theorem kind_eq {v w : Value} {r s : List Char} (hv : v.notFinite? = none) (hw : w.notFinite? = none)
    (h : value v ++ r = value w ++ s) : kind v = kind w := by
  obtain ⟨c, cs, hc, hkind⟩ := value_eq_cons hv
  obtain ⟨d, ds, hd, hkind'⟩ := value_eq_cons hw
  rw [hc, hd, List.cons_append, List.cons_append] at h
  obtain ⟨rfl, -⟩ := List.cons.inj h
  exact Option.some.inj (hkind.symm.trans hkind')

/-! ## Items and members -/

section

variable {α : Type} {write : List α → List Char} {close : Char}

/-- what is written behind an item: nothing, or a comma and the items that follow -/
def andMore (write : List α → List Char) : List α → List Char
  | [] => []
  | x :: xs => ',' :: write (x :: xs)

theorem endsNumber_andMore (hclose : isNumberChar close = false) (xs : List α) (r : List Char) :
    EndsNumber (andMore write xs ++ close :: r) := by
  cases xs with
  | nil => exact endsNumber_cons hclose r
  | cons x xs => exact endsNumber_cons (by decide) _

theorem andMore_cancel (hnil : write [] = []) (hclose : close ≠ ',') {xs ys : List α} {r s : List Char}
    (h : andMore write xs ++ close :: r = andMore write ys ++ close :: s) :
    write xs ++ close :: r = write ys ++ close :: s := by
  cases xs with
  | nil =>
    cases ys with
    | nil => rw [hnil]; exact h
    | cons y ys => exact absurd (List.cons.inj h).1 hclose
  | cons x xs =>
    cases ys with
    | nil => exact absurd (List.cons.inj h).1.symm hclose
    | cons y ys => exact (List.cons.inj h).2

end

theorem elements_cons (v : Value) (items : List Value) : elements (v :: items) = value v ++ andMore elements items := by
  cases items with
  | nil => simp [elements, andMore]
  | cons w items => simp [elements, andMore]

theorem members_cons (k : String) (v : Value) (entries : List (String × Value)) :
    members ((k, v) :: entries) = string k.toList ++ ':' :: (value v ++ andMore members entries) := by
  cases entries with
  | nil => simp [members, andMore]
  | cons e entries => simp [members, andMore]

/-- no item starts with the bracket that closes the list -/
theorem close_ne_elements {v : Value} (hv : v.notFinite? = none) (items : List Value) (r s : List Char) :
    ']' :: r ≠ elements (v :: items) ++ ']' :: s := by
  obtain ⟨c, cs, hc, hkind⟩ := value_eq_cons hv
  rw [elements_cons, hc]
  intro h
  obtain ⟨rfl, -⟩ := List.cons.inj h
  cases hkind

mutual

/-- **A finite value is told by its text, whatever ends it.** -/
theorem value_append_inj : (v w : Value) → v.notFinite? = none → w.notFinite? = none → (r s : List Char) →
    EndsNumber r → EndsNumber s → value v ++ r = value w ++ s → v = w ∧ r = s
  | v, w, hv, hw, r, s, hr, hs, h => by
    have hkind := kind_eq hv hw h
    cases v with
    | bool a =>
      cases w with
      | bool b => cases a <;> cases b <;> simp_all [value]
      | _ => cases hkind
    | number x =>
      cases w with
      | number y =>
        have hx : x.isFinite = true := by simpa [Value.notFinite?] using hv
        have hy : y.isFinite = true := by simpa [Value.notFinite?] using hw
        obtain ⟨rfl, hrest⟩ := number_append_inj hx hy hr hs h
        exact ⟨rfl, hrest⟩
      | _ => cases hkind
    | string a =>
      cases w with
      | string b =>
        obtain ⟨htext, hrest⟩ := string_append_inj h
        exact ⟨congrArg Value.string (String.toList_injective htext), hrest⟩
      | _ => cases hkind
    | list xs =>
      cases w with
      | list ys =>
        obtain ⟨rfl, hrest⟩ := elements_append_inj xs ys hv hw r s (by simpa [value] using h)
        exact ⟨rfl, hrest⟩
      | _ => cases hkind
    | map xs =>
      cases w with
      | map ys =>
        obtain ⟨rfl, hrest⟩ := members_append_inj xs ys hv hw r s (by simpa [value] using h)
        exact ⟨rfl, hrest⟩
      | _ => cases hkind

theorem elements_append_inj : (xs ys : List Value) → Value.itemNotFinite? xs = none →
    Value.itemNotFinite? ys = none → (r s : List Char) → elements xs ++ ']' :: r = elements ys ++ ']' :: s →
    xs = ys ∧ r = s
  | [], [], _, _, r, s, h => ⟨rfl, (List.cons.inj h).2⟩
  | [], y :: ys, _, hys, r, s, h => absurd h (close_ne_elements (Option.or_eq_none_iff.1 hys).1 ys r s)
  | x :: xs, [], hxs, _, r, s, h => absurd h.symm (close_ne_elements (Option.or_eq_none_iff.1 hxs).1 xs s r)
  | x :: xs, y :: ys, hfirst, hsecond, r, s, h => by
    obtain ⟨hx, hxs⟩ := Option.or_eq_none_iff.1 hfirst
    obtain ⟨hy, hys⟩ := Option.or_eq_none_iff.1 hsecond
    rw [elements_cons, elements_cons, List.append_assoc, List.append_assoc] at h
    obtain ⟨rfl, hmore⟩ := value_append_inj x y hx hy _ _ (endsNumber_andMore (by decide) xs r)
      (endsNumber_andMore (by decide) ys s) h
    obtain ⟨rfl, hrest⟩ := elements_append_inj xs ys hxs hys r s (andMore_cancel rfl (by decide) hmore)
    exact ⟨rfl, hrest⟩

theorem members_append_inj : (xs ys : List (String × Value)) → Value.entryNotFinite? xs = none →
    Value.entryNotFinite? ys = none → (r s : List Char) →
    members xs ++ '\x7d' :: r = members ys ++ '\x7d' :: s → xs = ys ∧ r = s
  | [], [], _, _, r, s, h => ⟨rfl, (List.cons.inj h).2⟩
  | [], (l, y) :: ys, _, _, r, s, h => by
    rw [members_cons] at h
    cases (List.cons.inj h).1
  | (k, x) :: xs, [], _, _, r, s, h => by
    rw [members_cons] at h
    cases (List.cons.inj h).1
  | (k, x) :: xs, (l, y) :: ys, hfirst, hsecond, r, s, h => by
    obtain ⟨hx, hxs⟩ := Option.or_eq_none_iff.1 hfirst
    obtain ⟨hy, hys⟩ := Option.or_eq_none_iff.1 hsecond
    rw [members_cons, members_cons, List.append_assoc, List.append_assoc] at h
    obtain ⟨hkey, hbehind⟩ := string_append_inj h
    have hvalue : value x ++ (andMore members xs ++ '\x7d' :: r) = value y ++ (andMore members ys ++ '\x7d' :: s) := by
      simpa using hbehind
    obtain ⟨rfl, hmore⟩ := value_append_inj x y hx hy _ _ (endsNumber_andMore (by decide) xs r)
      (endsNumber_andMore (by decide) ys s) hvalue
    obtain ⟨rfl, hrest⟩ := members_append_inj xs ys hxs hys r s (andMore_cancel rfl (by decide) hmore)
    exact ⟨by rw [String.toList_injective hkey], hrest⟩

end

/-- **The canonical JSON of finite values is injective.** -/
theorem value_injective {v w : Value} (hv : v.notFinite? = none) (hw : w.notFinite? = none)
    (h : value v = value w) : v = w :=
  (value_append_inj v w hv hw [] [] endsNumber_nil endsNumber_nil (by rw [h])).1

end Json

end BlockTemplates
