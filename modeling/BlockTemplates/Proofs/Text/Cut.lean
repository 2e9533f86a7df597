/-
Cuts are at the leftmost occurrence.

- `cut?_eq_none_iff`: there is no cut exactly if the pattern does not occur.
- `cut?_eq_some_iff`: the three pieces of a cut are the text, and no occurrence begins further left.
- `cut?_append`: an occurrence is cut out if none is in front of it, for patterns that cannot overlap themselves.
- `occurrence_append_cons`, `occurrence_append`: where an occurrence lies in a text of two pieces whose seam it cannot
  cross.
-/
import BlockTemplates.Text.Cut

namespace BlockTemplates.Text

theorem isPrefixOf?_eq_some_iff {pattern text rest : List Char} :
    pattern.isPrefixOf? text = some rest ↔ text = pattern ++ rest := by
  constructor
  · exact isPrefixOf?_eq_some
  · rintro rfl
    exact isPrefixOf?_append pattern rest

theorem isPrefixOf?_eq_none_iff {pattern text : List Char} : pattern.isPrefixOf? text = none ↔ ¬ pattern <+: text := by
  rw [Option.eq_none_iff_forall_ne_some]
  simp only [ne_eq, isPrefixOf?_eq_some_iff, ← not_exists]
  exact not_congr (exists_congr fun rest => eq_comm)

theorem cut?_cons_of_some {pattern rest : List Char} {c : Char} {cs : List Char}
    (h : pattern.isPrefixOf? (c :: cs) = some rest) : cut? pattern (c :: cs) = some ([], rest) := by
  simp only [cut?, h]

theorem cut?_cons_of_none {pattern : List Char} {c : Char} {cs : List Char}
    (h : pattern.isPrefixOf? (c :: cs) = none) :
    cut? pattern (c :: cs) = (cut? pattern cs).map fun (before, after) => (c :: before, after) := by
  simp only [cut?, h]

variable {pattern text before after : List Char}

/-- there is no cut where the pattern does not occur -/
theorem cut?_eq_none_iff : cut? pattern text = none ↔ ¬ pattern <:+: text := by
  induction text with
  | nil =>
    rw [cut?, Option.map_eq_none_iff, isPrefixOf?_eq_none_iff, List.prefix_nil, List.infix_nil]
  | cons c cs ih =>
    rw [List.infix_cons_iff, not_or, ← isPrefixOf?_eq_none_iff, ← ih]
    rcases hpre : pattern.isPrefixOf? (c :: cs) with _ | rest
    · simp [cut?_cons_of_none hpre]
    · simp [cut?_cons_of_some hpre]

theorem length_after_le_of_cut? (h : cut? pattern text = some (before, after)) : after.length ≤ text.length := by
  rw [cut?_eq_some h, List.length_append]
  omega

/-- no occurrence begins left of a cut -/
theorem length_le_of_cut? {before' after' : List Char} (h : cut? pattern text = some (before, after))
    (htext : text = before' ++ pattern ++ after') : before.length ≤ before'.length := by
  induction text generalizing before before' with
  | nil =>
    obtain ⟨rest, -, he⟩ := Option.map_eq_some_iff.1 h
    cases he
    exact Nat.zero_le _
  | cons c cs ih =>
    rcases hpre : pattern.isPrefixOf? (c :: cs) with _ | rest
    · rw [cut?_cons_of_none hpre] at h
      obtain ⟨⟨b, a⟩, hcs, he⟩ := Option.map_eq_some_iff.1 h
      cases he
      cases before' with
      | nil => exact absurd ⟨after', htext.symm⟩ (isPrefixOf?_eq_none_iff.1 hpre)
      | cons c' cs' =>
        have hle := ih hcs (List.cons.inj htext).2
        exact Nat.succ_le_succ hle
    · rw [cut?_cons_of_some hpre] at h
      cases h
      exact Nat.zero_le _

/-- a cut is at the leftmost occurrence -/
theorem cut?_eq_some_iff :
    cut? pattern text = some (before, after) ↔ text = before ++ pattern ++ after ∧
      ∀ before' after', text = before' ++ pattern ++ after' → before.length ≤ before'.length := by
  constructor
  · exact fun h => ⟨cut?_eq_some h, fun _ _ => length_le_of_cut? h⟩
  · rintro ⟨htext, hleft⟩
    rcases hcut : cut? pattern text with _ | ⟨b, a⟩
    · exact absurd ⟨before, after, htext.symm⟩ (cut?_eq_none_iff.1 hcut)
    · have hpieces : text = b ++ pattern ++ a := cut?_eq_some hcut
      have hlength : before.length = b.length :=
        Nat.le_antisymm (hleft b a hpieces) (length_le_of_cut? hcut htext)
      rw [htext, List.append_assoc, List.append_assoc] at hpieces
      obtain ⟨rfl, hrest⟩ := List.append_inj hpieces hlength
      rw [List.append_cancel_left hrest]

/-- the pattern does not occur in front of a cut -/
theorem not_infix_of_cut? (hpattern : pattern ≠ []) (h : cut? pattern text = some (before, after)) :
    ¬ pattern <:+: before := by
  rintro ⟨front, behind, hbefore⟩
  have htext : text = front ++ pattern ++ (behind ++ pattern ++ after) := by
    rw [cut?_eq_some h, ← hbefore]
    simp only [List.append_assoc]
  have hle := length_le_of_cut? h htext
  rw [← hbefore] at hle
  simp only [List.length_append] at hle
  exact hpattern (List.length_eq_zero_iff.1 (by omega))

/-- an occurrence that begins in front of another one and is not in front of it overlaps it, which a pattern cannot
whose first character does not come again -/
theorem cut?_append {first : Char} {others : List Char} (hpattern : pattern = first :: others)
    (hothers : first ∉ others) (hbefore : ¬ pattern <:+: before) (after : List Char) :
    cut? pattern (before ++ pattern ++ after) = some (before, after) := by
  refine cut?_eq_some_iff.2 ⟨rfl, fun front behind htext => Nat.le_of_not_lt fun hlt => ?_⟩
  rw [List.append_assoc, List.append_assoc] at htext
  rcases List.append_eq_append_iff.1 htext with ⟨gap, hfront, -⟩ | ⟨gap, rfl, hgap⟩
  · rw [hfront, List.length_append] at hlt
    omega
  -- the other occurrence begins with `gap`, the end of `before`
  rcases List.append_eq_append_iff.1 hgap with ⟨rest, rfl, -⟩ | ⟨overlap, hsplit, hoverlap⟩
  · exact hbefore ⟨front, rest, by rw [List.append_assoc]⟩
  · cases gap with
    | nil =>
      rw [List.append_nil] at hlt
      exact Nat.lt_irrefl _ hlt
    | cons c gap =>
      rw [hpattern, List.cons_append] at hsplit
      obtain ⟨rfl, htail⟩ := List.cons.inj hsplit
      cases overlap with
      | nil => exact hbefore ⟨front, [], by rw [hpattern, htail, List.append_nil, List.append_nil]⟩
      | cons d overlap =>
        rw [hpattern, List.cons_append, List.cons_append] at hoverlap
        obtain ⟨rfl, -⟩ := List.cons.inj hoverlap
        exact hothers (htail ▸ List.mem_append_right gap List.mem_cons_self)

/-! ## Occurrences beside a seam -/

/-- an occurrence does not cross a seam behind which a character stands that comes only first in the pattern, if at all -/
theorem occurrence_append_cons {left right front behind : List Char} {c : Char} (hc : c ∉ pattern.tail)
    (h : left ++ c :: right = front ++ pattern ++ behind) :
    (∃ gap, left = front ++ pattern ++ gap) ∨ ∃ gap, front = left ++ gap ∧ c :: right = gap ++ pattern ++ behind := by
  rw [List.append_assoc] at h
  rcases List.append_eq_append_iff.1 h with ⟨gap, hfront, hright⟩ | ⟨gap, hleft, hrest⟩
  · exact .inr ⟨gap, hfront, by rw [hright, List.append_assoc]⟩
  rcases List.append_eq_append_iff.1 hrest with ⟨rest, rfl, -⟩ | ⟨overlap, hpattern, hoverlap⟩
  · exact .inl ⟨rest, by rw [hleft, List.append_assoc]⟩
  cases overlap with
  | nil => exact .inl ⟨[], by rw [hleft, hpattern, List.append_nil, List.append_nil]⟩
  | cons d overlap =>
    obtain ⟨rfl, -⟩ := List.cons.inj hoverlap
    cases gap with
    | nil => exact .inr ⟨[], by rw [hleft, List.append_nil, List.append_nil], hrest.symm⟩
    | cons p gap =>
      rw [hpattern, List.cons_append, List.tail_cons] at hc
      exact absurd (List.mem_append_right gap List.mem_cons_self) hc

/-- an occurrence that begins behind the first character of a piece begins behind the piece, if the first character of
the pattern does not come again in the piece -/
theorem occurrence_append {left right front others : List Char} {first : Char} (hleft : first ∉ left.tail)
    (hfront : front ≠ []) (h : left ++ right = front ++ first :: others) :
    ∃ gap, front = left ++ gap ∧ right = gap ++ first :: others := by
  rcases List.append_eq_append_iff.1 h with ⟨gap, hgap, hright⟩ | ⟨gap, hgap, hrest⟩
  · exact ⟨gap, hgap, hright⟩
  cases gap with
  | nil => exact ⟨[], by rw [hgap, List.append_nil, List.append_nil], hrest.symm⟩
  | cons c gap =>
    obtain ⟨rfl, -⟩ := List.cons.inj hrest
    cases front with
    | nil => exact absurd rfl hfront
    | cons f front =>
      rw [hgap, List.cons_append, List.tail_cons] at hleft
      exact absurd (List.mem_append_right front List.mem_cons_self) hleft

end BlockTemplates.Text
