/-
The first occurrence of one text in another.

`cut? pattern text` gives what stands before the leftmost occurrence of `pattern` and what stands after it.
`cut?_eq_some` says that the three pieces together are the text again.
-/
namespace BlockTemplates.Text

/-- the text before and after the leftmost occurrence of `pattern` -/
def cut? (pattern : List Char) : List Char → Option (List Char × List Char)
  | [] => (pattern.isPrefixOf? []).map fun rest => ([], rest)
  | c :: cs =>
    match pattern.isPrefixOf? (c :: cs) with
    | some rest => some ([], rest)
    | none => (cut? pattern cs).map fun (before, after) => (c :: before, after)

def occurs (pattern text : List Char) : Bool :=
  (cut? pattern text).isSome

theorem isPrefixOf?_cons (p c : Char) (ps cs : List Char) :
    (p :: ps).isPrefixOf? (c :: cs) = if p == c then ps.isPrefixOf? cs else none :=
  rfl

theorem isPrefixOf?_eq_some {pattern text rest : List Char} (h : pattern.isPrefixOf? text = some rest) :
    text = pattern ++ rest := by
  induction pattern generalizing text with
  | nil => exact Option.some.inj h
  | cons p ps ih =>
    cases text with
    | nil => exact nomatch (h : none = some rest)
    | cons c cs =>
      rw [isPrefixOf?_cons] at h
      split at h
      · next e => rw [ih h, eq_of_beq e, List.cons_append]
      · exact nomatch h

theorem isPrefixOf?_append (pattern rest : List Char) : pattern.isPrefixOf? (pattern ++ rest) = some rest := by
  induction pattern with
  | nil => rfl
  | cons p ps ih => rw [List.cons_append, isPrefixOf?_cons, if_pos (beq_self_eq_true p), ih]

/-- nothing is lost or moved by a cut -/
theorem cut?_eq_some {pattern text before after : List Char} (h : cut? pattern text = some (before, after)) :
    text = before ++ pattern ++ after := by
  induction text generalizing before with
  | nil =>
    simp only [cut?, Option.map_eq_some_iff] at h
    obtain ⟨rest, hr, he⟩ := h
    obtain ⟨rfl, rfl⟩ := Prod.mk.injEq .. ▸ he
    simpa using isPrefixOf?_eq_some hr
  | cons c cs ih =>
    simp only [cut?] at h
    split at h
    · next rest hr =>
      obtain ⟨rfl, rfl⟩ := Prod.mk.injEq .. ▸ Option.some.inj h
      simpa using isPrefixOf?_eq_some hr
    · obtain ⟨⟨b, a⟩, hb, he⟩ := Option.map_eq_some_iff.1 h
      obtain ⟨rfl, rfl⟩ := Prod.mk.injEq .. ▸ he
      simp [ih hb]

end BlockTemplates.Text
