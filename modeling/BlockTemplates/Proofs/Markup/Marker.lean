/-
Start markers in a text.

`start?_eq_some_iff`: a text has a start marker at its head exactly if it is the marker of a name with text behind it.
`cutStart?` is the cut at the leftmost start marker (`cutStart?_eq_some_iff`), and like every cut it can be looked for
line by line: `cutStart?_line_of_some`, `cutStart?_line_of_none`.
-/
import BlockTemplates.Name
import BlockTemplates.Proofs.Text.Lines

namespace BlockTemplates

namespace Marker

/-! ## A marker at the head of a text -/

/-- a character that stands in no name and not around it does not stand in a marker -/
theorem not_mem_around {name front : List Char} (h : isNameText name = true) {c : Char} (hname : isNameChar c = false)
    (hfront : c ∉ front) (htail : c ∉ tail) : c ∉ front ++ name ++ tail := by
  have hother : c ∉ name := by
    intro hmem
    rw [(isNameText_iff.1 h).2 c hmem] at hname
    cases hname
  simp [hfront, hother, htail]

theorem newline_not_mem_start {name : List Char} (h : isNameText name = true) : '\n' ∉ start name :=
  not_mem_around h (by decide) (by decide) (by decide)

theorem newline_not_mem_stop {name : List Char} (h : isNameText name = true) : '\n' ∉ stop name :=
  not_mem_around h (by decide) (by decide) (by decide)

/-- the first character of an end marker does not come again in it -/
theorem stop_eq_cons {name : List Char} (h : isNameText name = true) :
    ∃ others, stop name = '<' :: others ∧ '<' ∉ others :=
  ⟨closing.tail ++ name ++ tail, rfl, not_mem_around h (by decide) (by decide) (by decide)⟩

/-- nor does that of a start marker -/
theorem start_eq_cons {name : List Char} (h : isNameText name = true) :
    ∃ others, start name = '<' :: others ∧ '<' ∉ others :=
  ⟨opening.tail ++ name ++ tail, rfl, not_mem_around h (by decide) (by decide) (by decide)⟩

theorem stop_ne_nil (name : List Char) : stop name ≠ [] :=
  List.cons_ne_nil _ _

theorem stop_append_ne_start_append (name after name' after' : List Char) :
    stop name ++ after ≠ start name' ++ after' := by
  intro h
  have hfourth := congrArg (fun text => text[3]?) h
  have hstop : (stop name ++ after)[3]? = some 'E' := rfl
  have hstart : (start name' ++ after')[3]? = some 'S' := rfl
  simp only [hstop, hstart] at hfourth
  cases hfourth

/-- an end marker behind a text without it is the leftmost -/
theorem cut?_stop {name inside : List Char} (h : isNameText name = true) (hinside : ¬ stop name <:+: inside)
    (after : List Char) : Text.cut? (stop name) (inside ++ stop name ++ after) = some (inside, after) := by
  obtain ⟨others, hstop, hothers⟩ := stop_eq_cons h
  exact Text.cut?_append hstop hothers hinside after

/-- the run of name characters in front of the end of a marker is the name -/
theorem takeWhile_name {name : List Char} (h : isNameText name = true) (rest : List Char) :
    (name ++ (tail ++ rest)).takeWhile isNameChar = name := by
  have hstop : (tail ++ rest).takeWhile isNameChar = [] := rfl
  rw [List.takeWhile_append_of_pos (isNameText_iff.1 h).2, hstop, List.append_nil]

theorem dropWhile_name {name : List Char} (h : isNameText name = true) (rest : List Char) :
    (name ++ (tail ++ rest)).dropWhile isNameChar = tail ++ rest := by
  have hstop : (tail ++ rest).dropWhile isNameChar = tail ++ rest := rfl
  rw [List.dropWhile_append_of_pos (isNameText_iff.1 h).2, hstop]

/-- a start marker at the head is the marker of a name -/
theorem start?_eq_some_iff {cs name rest : List Char} :
    start? cs = some (name, rest) ↔ isNameText name = true ∧ cs = start name ++ rest := by
  constructor
  · intro h
    simp only [start?, Option.bind_eq_bind, Option.bind_eq_some_iff] at h
    obtain ⟨behind, hopening, after, htail, h⟩ := h
    split at h
    · cases h
    · next hne =>
      cases h
      have hall : ∀ c ∈ behind.takeWhile isNameChar, isNameChar c = true :=
        fun c hc => List.all_eq_true.1 List.all_takeWhile c hc
      refine ⟨isNameText_iff.2 ⟨by simpa using hne, hall⟩, ?_⟩
      calc cs = opening ++ behind := Text.isPrefixOf?_eq_some hopening
        _ = opening ++ (behind.takeWhile isNameChar ++ behind.dropWhile isNameChar) := by
          rw [List.takeWhile_append_dropWhile]
        _ = start (behind.takeWhile isNameChar) ++ rest := by
          rw [Text.isPrefixOf?_eq_some htail]
          simp only [start, List.append_assoc]
  · rintro ⟨hname, rfl⟩
    have hne : name.isEmpty = false := by simpa using (isNameText_iff.1 hname).1
    have htext : start name ++ rest = opening ++ (name ++ (tail ++ rest)) := by
      simp only [start, List.append_assoc]
    simp only [start?, htext, Text.isPrefixOf?_append, Option.bind_eq_bind, Option.bind_some, takeWhile_name hname,
      dropWhile_name hname, hne]
    rfl

/-- a start marker at the head stands in the first line -/
theorem start?_line (line rest : List Char) :
    start? (line ++ '\n' :: rest) = (start? line).map fun (name, after) => (name, after ++ '\n' :: rest) := by
  rcases hstart : start? line with _ | ⟨name, after⟩
  · rw [Option.map_none, Option.eq_none_iff_forall_ne_some]
    rintro ⟨name, after⟩ h
    obtain ⟨hname, htext⟩ := start?_eq_some_iff.1 h
    have hprefix := Text.isPrefixOf?_line (newline_not_mem_start hname) line rest
    rw [Text.isPrefixOf?_eq_some_iff.2 htext, eq_comm, Option.map_eq_some_iff] at hprefix
    obtain ⟨inLine, hinLine, -⟩ := hprefix
    have hsome := start?_eq_some_iff.2 ⟨hname, Text.isPrefixOf?_eq_some hinLine⟩
    rw [hstart] at hsome
    cases hsome
  · obtain ⟨hname, rfl⟩ := start?_eq_some_iff.1 hstart
    refine start?_eq_some_iff.2 ⟨hname, ?_⟩
    rw [List.append_assoc]

/-! ## The leftmost marker -/

/-- the text before the leftmost start marker, the name in the marker, and the text behind it -/
def cutStart? : List Char → Option (List Char × List Char × List Char)
  | [] => none
  | c :: cs =>
    match start? (c :: cs) with
    | some (name, rest) => some ([], name, rest)
    | none => (cutStart? cs).map fun (before, name, rest) => (c :: before, name, rest)

theorem cutStart?_of_start {c : Char} {cs name rest : List Char} (h : start? (c :: cs) = some (name, rest)) :
    cutStart? (c :: cs) = some ([], name, rest) := by
  simp only [cutStart?, h]

theorem cutStart?_of_not_start {c : Char} {cs : List Char} (h : start? (c :: cs) = none) :
    cutStart? (c :: cs) = (cutStart? cs).map fun (before, name, rest) => (c :: before, name, rest) := by
  simp only [cutStart?, h]

theorem cutStart?_start {name : List Char} (h : isNameText name = true) (rest : List Char) :
    cutStart? (start name ++ rest) = some ([], name, rest) :=
  cutStart?_of_start (start?_eq_some_iff.2 ⟨h, rfl⟩)

theorem firstStart?_eq (text : List Char) :
    firstStart? text = (cutStart? text).map fun (_, name, rest) => (name, rest) := by
  induction text with
  | nil => rfl
  | cons c cs ih =>
    rcases hstart : start? (c :: cs) with _ | ⟨name, rest⟩
    · rw [firstStart?, hstart, cutStart?_of_not_start hstart, Option.none_or, ih, Option.map_map]
      rfl
    · rw [firstStart?, hstart, cutStart?_of_start hstart]
      rfl

/-- the pieces of a cut are the text, and the name is a name -/
theorem cutStart?_eq_some {text before name rest : List Char} (h : cutStart? text = some (before, name, rest)) :
    isNameText name = true ∧ text = before ++ start name ++ rest := by
  induction text generalizing before with
  | nil => cases h
  | cons c cs ih =>
    rcases hstart : start? (c :: cs) with _ | ⟨first, behind⟩
    · rw [cutStart?_of_not_start hstart] at h
      obtain ⟨⟨b, n, r⟩, hcs, he⟩ := Option.map_eq_some_iff.1 h
      cases he
      obtain ⟨hname, rfl⟩ := ih hcs
      exact ⟨hname, rfl⟩
    · rw [cutStart?_of_start hstart] at h
      cases h
      exact start?_eq_some_iff.1 hstart

theorem not_mem_pieces_of_cutStart? {line before name rest : List Char}
    (h : cutStart? line = some (before, name, rest)) (hline : '\n' ∉ line) : '\n' ∉ before ∧ '\n' ∉ rest := by
  rw [(cutStart?_eq_some h).2, List.mem_append, List.mem_append] at hline
  exact ⟨fun hmem => hline (.inl (.inl hmem)), fun hmem => hline (.inr hmem)⟩

theorem length_lt_of_cutStart? {text before name rest : List Char}
    (h : cutStart? text = some (before, name, rest)) : rest.length < text.length := by
  have hopening : opening.length = 17 := rfl
  rw [(cutStart?_eq_some h).2, start]
  simp only [List.length_append, hopening]
  omega

/-- no marker of a name begins left of the cut -/
theorem length_le_of_cutStart? {text before name rest before' name' rest' : List Char}
    (h : cutStart? text = some (before, name, rest)) (hname : isNameText name' = true)
    (htext : text = before' ++ start name' ++ rest') : before.length ≤ before'.length := by
  induction text generalizing before before' with
  | nil => cases h
  | cons c cs ih =>
    rcases hstart : start? (c :: cs) with _ | ⟨first, behind⟩
    · rw [cutStart?_of_not_start hstart] at h
      obtain ⟨⟨b, n, r⟩, hcs, he⟩ := Option.map_eq_some_iff.1 h
      cases he
      cases before' with
      | nil =>
        rw [start?_eq_some_iff.2 ⟨hname, htext⟩] at hstart
        cases hstart
      | cons c' cs' => exact Nat.succ_le_succ (ih hcs (List.cons.inj htext).2)
    · rw [cutStart?_of_start hstart] at h
      cases h
      exact Nat.zero_le _

/-- there is no cut where no marker of a name occurs -/
theorem cutStart?_eq_none_iff {text : List Char} :
    cutStart? text = none ↔ ∀ name, isNameText name = true → ¬ start name <:+: text := by
  constructor
  · intro h name hname
    induction text with
    | nil =>
      rw [List.infix_nil]
      exact nofun
    | cons c cs ih =>
      rcases hstart : start? (c :: cs) with _ | ⟨first, behind⟩
      · rw [cutStart?_of_not_start hstart, Option.map_eq_none_iff] at h
        rw [List.infix_cons_iff, not_or]
        refine ⟨?_, ih h⟩
        rintro ⟨rest, hrest⟩
        rw [start?_eq_some_iff.2 ⟨hname, hrest.symm⟩] at hstart
        cases hstart
      · rw [cutStart?_of_start hstart] at h
        cases h
  · intro h
    rw [Option.eq_none_iff_forall_ne_some]
    rintro ⟨before, name, rest⟩ hcut
    obtain ⟨hname, htext⟩ := cutStart?_eq_some hcut
    exact h name hname ⟨before, rest, htext.symm⟩

/-- a cut is at the leftmost marker of a name -/
theorem cutStart?_eq_some_iff {text before name rest : List Char} :
    cutStart? text = some (before, name, rest) ↔
      isNameText name = true ∧ text = before ++ start name ++ rest ∧
        ∀ before' name' rest', isNameText name' = true → text = before' ++ start name' ++ rest' →
          before.length ≤ before'.length := by
  constructor
  · intro h
    obtain ⟨hname, htext⟩ := cutStart?_eq_some h
    exact ⟨hname, htext, fun _ _ _ => length_le_of_cutStart? h⟩
  · rintro ⟨hname, htext, hleft⟩
    rcases hcut : cutStart? text with _ | ⟨b, n, r⟩
    · exact absurd ⟨before, rest, htext.symm⟩ (cutStart?_eq_none_iff.1 hcut name hname)
    · obtain ⟨hname', hpieces⟩ := cutStart?_eq_some hcut
      have hlength : before.length = b.length :=
        Nat.le_antisymm (hleft b n r hname' hpieces) (length_le_of_cutStart? hcut hname htext)
      rw [htext, List.append_assoc, List.append_assoc] at hpieces
      obtain ⟨rfl, hmarker⟩ := List.append_inj hpieces hlength
      have hfirst := start?_eq_some_iff.2 ⟨hname, hmarker.symm⟩
      rw [start?_eq_some_iff.2 ⟨hname', rfl⟩] at hfirst
      cases hfirst
      rfl

/-- a marker in the first line is the leftmost -/
theorem cutStart?_line_of_some {line before name after : List Char} (rest : List Char)
    (hcut : cutStart? line = some (before, name, after)) :
    cutStart? (line ++ '\n' :: rest) = some (before, name, after ++ '\n' :: rest) := by
  induction line generalizing before with
  | nil => cases hcut
  | cons c cs ih =>
    have hline := start?_line (c :: cs) rest
    rw [List.cons_append] at hline ⊢
    rcases hstart : start? (c :: cs) with _ | ⟨first, behind⟩
    · rw [hstart] at hline
      rw [cutStart?_of_not_start hstart] at hcut
      obtain ⟨⟨b, n, a⟩, hcs, he⟩ := Option.map_eq_some_iff.1 hcut
      cases he
      rw [cutStart?_of_not_start hline, ih hcs]
      rfl
    · rw [hstart] at hline
      rw [cutStart?_of_start hstart] at hcut
      cases hcut
      exact cutStart?_of_start hline

/-- without a marker in the first line, the leftmost is that of the lines behind it -/
theorem cutStart?_line_of_none {line : List Char} (rest : List Char) (hcut : cutStart? line = none) :
    cutStart? (line ++ '\n' :: rest) =
      (cutStart? rest).map fun (before, name, after) => (line ++ '\n' :: before, name, after) := by
  induction line with
  | nil => exact cutStart?_of_not_start (start?_line [] rest)
  | cons c cs ih =>
    have hline := start?_line (c :: cs) rest
    rw [List.cons_append] at hline ⊢
    rcases hstart : start? (c :: cs) with _ | ⟨first, behind⟩
    · rw [hstart] at hline
      rw [cutStart?_of_not_start hstart] at hcut
      rw [cutStart?_of_not_start hline, ih (Option.map_eq_none_iff.1 hcut), Option.map_map]
      rfl
    · rw [cutStart?_of_start hstart] at hcut
      cases hcut

end Marker

end BlockTemplates
