/-
Which tokens are the tokens of a body.

The scanner always takes the longest bracket. So tokens that are written one after another are found again exactly if
none of them goes on in what is written behind it (`Token.Separate`): `scan_eq_iff`. One character behind a token
decides this.
-/
import BlockTemplates.Template.Token

namespace BlockTemplates

namespace Token

/-- a character that is a token of its own or part of a bracket -/
def isBrace (c : Char) : Bool :=
  c == '{' || c == '}'

theorem isBrace_eq_false_iff {c : Char} : isBrace c = false ↔ c ≠ '{' ∧ c ≠ '}' := by
  simp [isBrace]

/-- the scanner that stands in front of a token finds this token and no other, if `rest` is behind it -/
def EndsBefore (rest : List Char) : Token → Prop
  | openInvoke => True
  | openSlot => rest.head? ≠ some '>'
  | close => True
  | openBrace => rest.head? ≠ some '{'
  | closeBrace => rest.head? ≠ some '}'
  | text cs => cs ≠ [] ∧ (∀ c ∈ cs, isBrace c = false) ∧ ∀ c ∈ rest.head?, isBrace c = true

/-- every token ends before the ones behind it -/
def Separate : List Token → Prop
  | [] => True
  | token :: tokens => token.EndsBefore (tokens.flatMap chars) ∧ Separate tokens

/-! ## What the scanner finds is separate -/

/-- a run of text that gets longer in front still ends where it did -/
theorem separate_consText {c : Char} (hc : isBrace c = false) {tokens : List Token} (h : Separate tokens) :
    Separate (consText c tokens) := by
  cases tokens with
  | nil => exact ⟨⟨List.cons_ne_nil _ _, by simpa using hc, nofun⟩, trivial⟩
  | cons token tokens =>
    cases token with
    | text cs =>
      obtain ⟨⟨-, hcs, hrest⟩, htokens⟩ := h
      exact ⟨⟨List.cons_ne_nil c cs, List.forall_mem_cons.2 ⟨hc, hcs⟩, hrest⟩, htokens⟩
    | openInvoke | openSlot | close | openBrace | closeBrace =>
      exact ⟨⟨List.cons_ne_nil _ _, by simpa using hc, by simp [chars, isBrace]⟩, h⟩

/-- the tokens of a body are separate -/
theorem separate_scan (cs : List Char) : Separate (scan cs) := by
  have hhead : ∀ {c : Char} {cs : List Char}, (∀ rest, cs = c :: rest → False) →
      ((scan cs).flatMap chars).head? ≠ some c := by
    intro c cs hnot hhead
    rw [chars_scan, List.head?_eq_some_iff] at hhead
    exact hhead.elim hnot
  fun_induction scan cs with
  | case1 => trivial
  | case2 cs ih => exact ⟨trivial, ih⟩
  | case3 cs hnot ih => exact ⟨hhead hnot, ih⟩
  | case4 cs ih => exact ⟨trivial, ih⟩
  | case5 cs _ hnot ih => exact ⟨hhead hnot, ih⟩
  | case6 cs hnot ih => exact ⟨hhead hnot, ih⟩
  | case7 c cs _ _ _ hopen hclose ih => exact separate_consText (isBrace_eq_false_iff.2 ⟨hopen, hclose⟩) ih

/-! ## Separate tokens are found -/

/-- a run of text does not go on in a text that begins with a brace -/
theorem consText_scan {rest : List Char} (hrest : ∀ c ∈ rest.head?, isBrace c = true) (c : Char) :
    consText c (scan rest) = text [c] :: scan rest := by
  fun_cases scan rest with
  | case7 d rest _ _ _ hopen hclose =>
    exact absurd (hrest d rfl) (by rw [isBrace_eq_false_iff.2 ⟨hopen, hclose⟩]; decide)
  | _ => rfl

theorem scan_text_cons {c : Char} (hc : isBrace c = false) (cs : List Char) :
    scan (c :: cs) = consText c (scan cs) := by
  obtain ⟨hopen, hclose⟩ := isBrace_eq_false_iff.1 hc
  exact scan.eq_7 c cs (fun _ h => absurd h hopen) (fun _ h => absurd h hopen) (fun _ h => absurd h hclose) hopen hclose

/-- a token that ends before `rest` is found in front of it -/
theorem scan_append {token : Token} {rest : List Char} (h : token.EndsBefore rest) :
    scan (token.chars ++ rest) = token :: scan rest := by
  have hnot : ∀ {c : Char} {cs : List Char}, cs.head? ≠ some c → ∀ others, cs ≠ c :: others := by
    rintro c _ hne others rfl
    exact hne rfl
  cases token with
  | openInvoke => rfl
  | openSlot => exact scan.eq_3 rest (hnot h)
  | close => rfl
  | openBrace => exact scan.eq_5 rest (fun others => hnot h _) (hnot h)
  | closeBrace => exact scan.eq_6 rest (hnot h)
  | text cs =>
    obtain ⟨hne, hcs, hrest⟩ := h
    induction cs with
    | nil => exact absurd rfl hne
    | cons c cs ih =>
      obtain ⟨hc, hcs⟩ := List.forall_mem_cons.1 hcs
      rw [chars, List.cons_append, scan_text_cons hc]
      cases cs with
      | nil => exact consText_scan hrest c
      | cons d cs =>
        have htext := ih (List.cons_ne_nil d cs) hcs
        rw [chars] at htext
        rw [htext, consText]

theorem scan_flatMap_chars {tokens : List Token} (h : Separate tokens) : scan (tokens.flatMap chars) = tokens := by
  induction tokens with
  | nil => rfl
  | cons token tokens ih => rw [List.flatMap_cons, scan_append h.1, ih h.2]

/-- the tokens of a body are the separate tokens that are the body when they are written one after another -/
theorem scan_eq_iff {cs : List Char} {tokens : List Token} :
    scan cs = tokens ↔ Separate tokens ∧ tokens.flatMap chars = cs := by
  constructor
  · rintro rfl
    exact ⟨separate_scan cs, chars_scan cs⟩
  · rintro ⟨hseparate, rfl⟩
    exact scan_flatMap_chars hseparate

end Token

end BlockTemplates
