/-
Texts and their lines.

A text is one line, or a line, a newline and a text again: `lineInduction`. A pattern without a newline occurs only
inside a line, so its leftmost occurrence can be looked for line by line: `cut?_line_of_some`, `cut?_line_of_none`.
-/
import BlockTemplates.Proofs.Text.Cut
import Mathlib.Data.List.TakeWhile

namespace BlockTemplates.Text

/-! ## Lines -/

def firstLine (text : List Char) : List Char :=
  text.takeWhile (· != '\n')

/-- what stands behind the first newline of a text; nothing if there is none -/
def nextLines (text : List Char) : List Char :=
  (text.dropWhile (· != '\n')).tail

/-- a text is a line without a newline, or such a line and a newline in front of a text -/
@[elab_as_elim]
theorem lineInduction {motive : List Char → Prop} (last : ∀ line, '\n' ∉ line → motive line)
    (next : ∀ line rest, '\n' ∉ line → motive rest → motive (line ++ '\n' :: rest)) (text : List Char) :
    motive text := by
  by_cases hmem : '\n' ∈ text
  · obtain ⟨line, rest, htext, hline⟩ := List.eq_append_cons_of_mem hmem
    have hshorter : rest.length < text.length := by
      rw [htext, List.length_append, List.length_cons]
      omega
    rw [htext]
    exact next line rest hline (lineInduction last next rest)
  · exact last text hmem
termination_by text.length

section

variable {line : List Char} (h : '\n' ∉ line) (rest : List Char)

include h

theorem bne_newline : ∀ c ∈ line, (c != '\n') = true := by
  intro c hc
  rw [bne_iff_ne]
  rintro rfl
  exact h hc

theorem firstLine_line : firstLine (line ++ '\n' :: rest) = line := by
  rw [firstLine, List.takeWhile_append_of_pos (bne_newline h), List.takeWhile_cons_of_neg (by decide),
    List.append_nil]

theorem nextLines_line : nextLines (line ++ '\n' :: rest) = rest := by
  rw [nextLines, List.dropWhile_append_of_pos (bne_newline h), List.dropWhile_cons_of_neg (by decide), List.tail_cons]

theorem nextLines_last : nextLines line = [] := by
  rw [nextLines, List.dropWhile_eq_nil_iff.2 (bne_newline h)]
  rfl

theorem count_line : (line ++ '\n' :: rest).count '\n' = rest.count '\n' + 1 := by
  rw [List.count_append, List.count_cons_self, List.count_eq_zero_of_not_mem h, Nat.zero_add]

theorem splitOn_last : line.splitOn '\n' = [line] :=
  List.splitOn_eq_singleton h

theorem splitOn_line : (line ++ '\n' :: rest).splitOn '\n' = line :: rest.splitOn '\n' :=
  List.splitOn_append_cons_self_of_not_mem h rest

end

/-- a text ends with its first line, or goes on with a newline and the next lines -/
theorem exists_firstLine_append (text : List Char) :
    '\n' ∉ firstLine text ∧ ∃ rest, text = firstLine text ++ rest ∧
      (rest = [] ∧ nextLines text = [] ∨ rest = '\n' :: nextLines text) := by
  by_cases hmem : '\n' ∈ text
  · obtain ⟨line, rest, rfl, hline⟩ := List.eq_append_cons_of_mem hmem
    rw [firstLine_line hline, nextLines_line hline]
    exact ⟨hline, _, rfl, .inr rfl⟩
  · have hfirst : firstLine text = text := List.takeWhile_eq_self_iff.2 (bne_newline hmem)
    rw [hfirst, nextLines_last hmem]
    exact ⟨hmem, [], (List.append_nil text).symm, .inl ⟨rfl, rfl⟩⟩

theorem length_nextLines_le (text : List Char) : (nextLines text).length ≤ text.length := by
  have hdrop := (List.dropWhile_sublist (p := (· != '\n')) (l := text)).length_le
  rw [nextLines, List.length_tail]
  omega

/-! ## Occurrences -/

theorem not_mem_pieces_of_cut? {pattern line before after : List Char} (h : cut? pattern line = some (before, after))
    (hline : '\n' ∉ line) : '\n' ∉ before ∧ '\n' ∉ after := by
  rw [cut?_eq_some h, List.mem_append, List.mem_append] at hline
  exact ⟨fun hmem => hline (.inl (.inl hmem)), fun hmem => hline (.inr hmem)⟩

section

variable {pattern : List Char} (h : '\n' ∉ pattern)

include h

theorem isPrefixOf?_line (line rest : List Char) :
    pattern.isPrefixOf? (line ++ '\n' :: rest) =
      (pattern.isPrefixOf? line).map fun after => after ++ '\n' :: rest := by
  induction pattern generalizing line with
  | nil => rfl
  | cons p ps ih =>
    have hp : (p == '\n') = false := by
      rw [beq_eq_false_iff_ne]
      rintro rfl
      exact h List.mem_cons_self
    have hps : '\n' ∉ ps := fun hmem => h (List.mem_cons_of_mem p hmem)
    cases line with
    | nil =>
      rw [List.nil_append, isPrefixOf?_cons, hp]
      rfl
    | cons c cs =>
      rw [List.cons_append, isPrefixOf?_cons, isPrefixOf?_cons]
      split
      · exact ih hps cs
      · rfl

/-- an occurrence in the first line is the leftmost -/
theorem cut?_line_of_some {line before after : List Char} (rest : List Char)
    (hcut : cut? pattern line = some (before, after)) :
    cut? pattern (line ++ '\n' :: rest) = some (before, after ++ '\n' :: rest) := by
  induction line generalizing before with
  | nil =>
    obtain ⟨a, ha, he⟩ := Option.map_eq_some_iff.1 hcut
    cases he
    have hprefix := isPrefixOf?_line h [] rest
    rw [ha] at hprefix
    exact cut?_cons_of_some hprefix
  | cons c cs ih =>
    have hprefix := isPrefixOf?_line h (c :: cs) rest
    rcases hpre : pattern.isPrefixOf? (c :: cs) with _ | a
    · rw [hpre] at hprefix
      rw [cut?_cons_of_none hpre] at hcut
      obtain ⟨⟨b, a⟩, hcs, he⟩ := Option.map_eq_some_iff.1 hcut
      cases he
      rw [List.cons_append] at hprefix ⊢
      rw [cut?_cons_of_none hprefix, ih hcs]
      rfl
    · rw [hpre] at hprefix
      rw [cut?_cons_of_some hpre] at hcut
      cases hcut
      exact cut?_cons_of_some hprefix

/-- without an occurrence in the first line, the leftmost is that of the lines behind it -/
theorem cut?_line_of_none {line : List Char} (rest : List Char) (hcut : cut? pattern line = none) :
    cut? pattern (line ++ '\n' :: rest) =
      (cut? pattern rest).map fun (before, after) => (line ++ '\n' :: before, after) := by
  induction line with
  | nil =>
    have hprefix := isPrefixOf?_line h [] rest
    rw [Option.map_eq_none_iff.1 hcut] at hprefix
    exact cut?_cons_of_none hprefix
  | cons c cs ih =>
    have hprefix := isPrefixOf?_line h (c :: cs) rest
    rcases hpre : pattern.isPrefixOf? (c :: cs) with _ | a
    · rw [hpre] at hprefix
      rw [cut?_cons_of_none hpre] at hcut
      rw [List.cons_append] at hprefix ⊢
      rw [cut?_cons_of_none hprefix, ih (Option.map_eq_none_iff.1 hcut), Option.map_map]
      rfl
    · rw [cut?_cons_of_some hpre] at hcut
      cases hcut

end

end BlockTemplates.Text
