/-
What stands inside a tag.

Paths and template names are made of name characters, which are neither blank nor braces. So a path that is written is
read again (`SlotPath.ofChars?_eq_some_iff`). A slot is read exactly where a path stands between blanks, and an
invocation where a name does, or a name and a path with blanks between (`Segment.Inside`, `Segment.slot?_eq_some_iff`,
`Segment.invoke?_eq_some_iff`); in particular where they stand as a tag is shown.
-/
import BlockTemplates.Proofs.Template.Tokens
import BlockTemplates.Template.Segment
import Mathlib.Data.List.TakeWhile

namespace BlockTemplates

/-! ## Characters -/

theorem isBlank_of_isNameChar {c : Char} (h : isNameChar c = true) : Text.isBlank c = false := by
  -- the classes of letters and digits as intervals of codes, which no blank is in
  have hupper : c.isUpper = decide (c.val ≥ 'A'.val ∧ c.val ≤ 'Z'.val) := rfl
  have hlower : c.isLower = (decide (c.val ≥ 'a'.val) && decide (c.val ≤ 'z'.val)) := rfl
  have halpha : c.isAlpha = (c.isUpper || c.isLower) := rfl
  have hdigit : c.isDigit = (decide (c.val ≥ '0'.val) && decide (c.val ≤ '9'.val)) := rfl
  simp only [isNameChar, isAsciiAlphanumeric, halpha, hdigit, hupper, hlower, Bool.or_eq_true, Bool.and_eq_true,
    decide_eq_true_eq, beq_iff_eq, ge_iff_le, UInt32.le_iff_toNat_le, Char.ext_iff, ← UInt32.toNat_inj] at h
  simp only [Text.isBlank, Char.toNat]
  simp at h ⊢
  omega

theorem isBrace_of_isNameChar {c : Char} (h : isNameChar c = true) : Token.isBrace c = false := by
  rw [Token.isBrace_eq_false_iff]
  constructor
  · rintro rfl
    cases h
  · rintro rfl
    cases h

theorem isBrace_of_isBlank {c : Char} (h : Text.isBlank c = true) : Token.isBrace c = false := by
  rw [Token.isBrace_eq_false_iff]
  constructor
  · rintro rfl
    cases h
  · rintro rfl
    cases h

theorem isNameChar_of_isKeyChar {c : Char} (h : isKeyChar c = true) : isNameChar c = true := by
  rw [isKeyChar, Bool.or_eq_true, Bool.or_eq_true] at h
  rcases h with (h | h) | h <;> simp [isNameChar, h]

/-! ## Blanks and words -/

namespace Text

theorem mem_or_mem_of_mem_intercalate {between : List Char} {pieces : List (List Char)} {c : Char}
    (h : c ∈ between.intercalate pieces) : c ∈ between ∨ ∃ piece ∈ pieces, c ∈ piece := by
  induction pieces with
  | nil => cases h
  | cons first rest ih =>
    cases rest with
    | nil =>
      rw [List.intercalate_singleton] at h
      exact .inr ⟨first, List.mem_cons_self, h⟩
    | cons second rest =>
      rw [List.intercalate_cons_cons, List.mem_append, List.mem_append] at h
      rcases h with (h | h) | h
      · exact .inr ⟨first, List.mem_cons_self, h⟩
      · exact .inl h
      · exact (ih h).imp id fun ⟨piece, hmem, hc⟩ => ⟨piece, List.mem_cons_of_mem first hmem, hc⟩

def Blanks (cs : List Char) : Prop :=
  ∀ c ∈ cs, isBlank c = true

/-- a run of characters that are not blank -/
structure IsWord (word : List Char) : Prop where
  ne_nil : word ≠ []
  not_blank : ∀ c ∈ word, isBlank c = false

theorem blanks_space : Blanks [' '] :=
  List.forall_mem_singleton.2 rfl

theorem IsWord.reverse {word : List Char} (h : IsWord word) : IsWord word.reverse :=
  ⟨List.reverse_ne_nil_iff.2 h.ne_nil, fun c hc => h.not_blank c (List.mem_reverse.1 hc)⟩

theorem IsWord.dropWhile_append {word : List Char} (h : IsWord word) (after : List Char) :
    (word ++ after).dropWhile isBlank = word ++ after := by
  obtain ⟨c, cs, rfl⟩ := List.exists_cons_of_ne_nil h.ne_nil
  exact List.dropWhile_cons_of_neg (Bool.eq_false_iff.1 (h.not_blank c List.mem_cons_self))

theorem trim_append {before word after : List Char} (hbefore : Blanks before) (hword : IsWord word)
    (hafter : Blanks after) : trim (before ++ word ++ after) = word := by
  have hstart : trimStart (before ++ word ++ after) = word ++ after := by
    rw [trimStart, List.append_assoc, List.dropWhile_append_of_pos hbefore, hword.dropWhile_append]
  have hend : word.reverse.dropWhile isBlank = word.reverse := by
    simpa using hword.reverse.dropWhile_append []
  rw [trim, hstart, trimEnd, List.reverse_append,
    List.dropWhile_append_of_pos fun c hc => hafter c (List.mem_reverse.1 hc), hend, List.reverse_reverse]

/-- only blanks are trimmed -/
theorem exists_append_trim (cs : List Char) :
    ∃ before after, Blanks before ∧ Blanks after ∧ cs = before ++ trim cs ++ after := by
  refine ⟨cs.takeWhile isBlank, ((trimStart cs).reverse.takeWhile isBlank).reverse, ?_, ?_, ?_⟩
  · exact fun c hc => List.mem_takeWhile_imp hc
  · exact fun c hc => List.mem_takeWhile_imp (List.mem_reverse.1 hc)
  · have hend : trim cs ++ ((trimStart cs).reverse.takeWhile isBlank).reverse = trimStart cs := by
      rw [trim, trimEnd, ← List.reverse_append, List.takeWhile_append_dropWhile, List.reverse_reverse]
    rw [List.append_assoc, hend, trimStart, List.takeWhile_append_dropWhile]

theorem words_blanks_append {before : List Char} (h : Blanks before) (cs : List Char) :
    words (before ++ cs) = words cs := by
  induction before with
  | nil => rfl
  | cons c before ih =>
    obtain ⟨hc, hbefore⟩ := List.forall_mem_cons.1 h
    have hsplit : ([] ++ c :: (before ++ cs)).splitOnP isBlank = [] :: (before ++ cs).splitOnP isBlank :=
      List.splitOnP_append_cons_of_forall_mem (List.forall_mem_nil _) c hc (before ++ cs)
    rw [List.nil_append] at hsplit
    rw [List.cons_append, words, hsplit, List.filter_cons_of_neg (by decide)]
    exact ih hbefore

theorem words_of_blanks {cs : List Char} (h : Blanks cs) : words cs = [] := by
  rw [← List.append_nil cs, words_blanks_append h]
  rfl

/-- a word that does not go on is found -/
theorem words_word_append {word after : List Char} (hword : IsWord word)
    (hafter : ∀ c ∈ after.head?, isBlank c = true) : words (word ++ after) = word :: words after := by
  have hfilter : ∀ rest, (word :: rest).filter (fun word => !word.isEmpty) =
      word :: rest.filter fun word => !word.isEmpty :=
    fun rest => List.filter_cons_of_pos (by simpa using hword.ne_nil)
  cases after with
  | nil => rw [List.append_nil, words, List.splitOnP_eq_singleton hword.not_blank, hfilter]; rfl
  | cons c after =>
    rw [words, List.splitOnP_append_cons_of_forall_mem hword.not_blank c (hafter c rfl), hfilter]
    exact congrArg (word :: ·) (words_blanks_append (List.forall_mem_singleton.2 (hafter c rfl)) after).symm

/-- a text is blank, or there is a first word in it -/
theorem blanks_or_exists_word (cs : List Char) :
    Blanks cs ∨ ∃ before word after, cs = before ++ word ++ after ∧ Blanks before ∧ IsWord word ∧
      ∀ c ∈ after.head?, isBlank c = true := by
  have hbefore : Blanks (cs.takeWhile isBlank) := fun c hc => List.mem_takeWhile_imp hc
  have hcs : cs = cs.takeWhile isBlank ++ cs.dropWhile isBlank := List.takeWhile_append_dropWhile.symm
  rcases hrest : cs.dropWhile isBlank with _ | ⟨c, rest⟩
  · rw [hrest, List.append_nil] at hcs
    exact .inl (hcs ▸ hbefore)
  have hc : isBlank c = false := by
    have hhead := List.head?_dropWhile_not isBlank cs
    rwa [hrest] at hhead
  refine .inr ⟨cs.takeWhile isBlank, c :: rest.takeWhile (!isBlank ·), rest.dropWhile (!isBlank ·), ?_, hbefore, ?_, ?_⟩
  · rw [List.append_assoc, List.cons_append, List.takeWhile_append_dropWhile, ← hrest, ← hcs]
  · refine ⟨List.cons_ne_nil _ _, List.forall_mem_cons.2 ⟨hc, fun d hd => ?_⟩⟩
    simpa using List.mem_takeWhile_imp hd
  · intro d hd
    have hhead := List.head?_dropWhile_not (!isBlank ·) rest
    rw [Option.mem_def.1 hd] at hhead
    simpa using hhead

theorem words_eq_nil_iff {cs : List Char} : words cs = [] ↔ Blanks cs := by
  refine ⟨fun h => ?_, words_of_blanks⟩
  rcases blanks_or_exists_word cs with hblanks | ⟨before, word, after, rfl, hbefore, hword, hafter⟩
  · exact hblanks
  · rw [List.append_assoc, words_blanks_append hbefore, words_word_append hword hafter] at h
    cases h

theorem words_eq_cons_iff {cs word : List Char} {rest : List (List Char)} :
    words cs = word :: rest ↔ ∃ before after, cs = before ++ word ++ after ∧ Blanks before ∧ IsWord word ∧
      (∀ c ∈ after.head?, isBlank c = true) ∧ words after = rest := by
  constructor
  · intro h
    rcases blanks_or_exists_word cs with hblanks | ⟨before, first, after, rfl, hbefore, hfirst, hafter⟩
    · rw [words_of_blanks hblanks] at h
      cases h
    · rw [List.append_assoc, words_blanks_append hbefore, words_word_append hfirst hafter] at h
      cases h
      exact ⟨before, after, rfl, hbefore, hfirst, hafter, rfl⟩
  · rintro ⟨before, after, rfl, hbefore, hword, hafter, rfl⟩
    rw [List.append_assoc, words_blanks_append hbefore, words_word_append hword hafter]

theorem words_eq_singleton_iff {cs word : List Char} :
    words cs = [word] ↔
      ∃ before after, cs = before ++ word ++ after ∧ Blanks before ∧ IsWord word ∧ Blanks after := by
  constructor
  · intro h
    obtain ⟨before, after, rfl, hbefore, hword, -, hrest⟩ := words_eq_cons_iff.1 h
    exact ⟨before, after, rfl, hbefore, hword, words_eq_nil_iff.1 hrest⟩
  · rintro ⟨before, after, rfl, hbefore, hword, hafter⟩
    exact words_eq_cons_iff.2 ⟨before, after, rfl, hbefore, hword, fun c hc => hafter c (List.mem_of_mem_head? hc),
      words_of_blanks hafter⟩

/-- two words are found where there is a blank between them -/
theorem words_eq_pair_iff {cs first second : List Char} :
    words cs = [first, second] ↔
      ∃ before between after, cs = before ++ first ++ between ++ second ++ after ∧ Blanks before ∧ IsWord first ∧
        Blanks between ∧ between ≠ [] ∧ IsWord second ∧ Blanks after := by
  constructor
  · intro h
    obtain ⟨before, behind, rfl, hbefore, hfirst, hbehind, hrest⟩ := words_eq_cons_iff.1 h
    obtain ⟨between, after, rfl, hbetween, hsecond, hafter⟩ := words_eq_singleton_iff.1 hrest
    refine ⟨before, between, after, by simp only [List.append_assoc], hbefore, hfirst, hbetween, ?_, hsecond, hafter⟩
    -- else the first word would go on in the second
    rintro rfl
    obtain ⟨c, word, rfl⟩ := List.exists_cons_of_ne_nil hsecond.ne_nil
    have hblank := hbehind c rfl
    rw [hsecond.not_blank c List.mem_cons_self] at hblank
    cases hblank
  · rintro ⟨before, between, after, rfl, hbefore, hfirst, hbetween, hne, hsecond, hafter⟩
    obtain ⟨c, blanks, rfl⟩ := List.exists_cons_of_ne_nil hne
    refine words_eq_cons_iff.2 ⟨before, c :: blanks ++ second ++ after, by simp only [List.append_assoc], hbefore,
      hfirst, ?_, words_eq_singleton_iff.2 ⟨c :: blanks, after, rfl, hbetween, hsecond, hafter⟩⟩
    rintro _ ⟨⟩
    exact hbetween c List.mem_cons_self

end Text

/-! ## Paths -/

namespace SlotPath

variable {p : SlotPath}

theorem IsValid.isNameChar_of_mem (h : p.IsValid) {part : String} (hpart : part ∈ p.parts) :
    part.toList ≠ [] ∧ '.' ∉ part.toList ∧ ∀ c ∈ part.toList, isNameChar c = true := by
  obtain ⟨hne, hkey⟩ := isKeyText_iff.1 (h part hpart)
  refine ⟨hne, fun hmem => ?_, fun c hc => isNameChar_of_isKeyChar (hkey c hc)⟩
  exact absurd (hkey '.' hmem) (by decide)

/-- a path is read from a text exactly if its parts are keys and the text is the path as it is written -/
theorem ofChars?_eq_some_iff {cs : List Char} : ofChars? cs = some p ↔ p.IsValid ∧ p.chars = cs := by
  constructor
  · intro h
    unfold ofChars? at h
    rcases hsplit : cs.splitOn '.' with _ | ⟨root, keys⟩
    · rw [hsplit] at h
      cases h
    rw [hsplit] at h
    simp only at h
    split at h
    · next hkeys =>
      cases h
      have hparts : ∀ part ∈ root :: keys, isKeyText part = true := List.all_eq_true.1 hkeys
      have hlists : (parts ⟨String.ofList root, keys.map String.ofList⟩).map String.toList = root :: keys := by
        simp [parts, Function.comp_def]
      constructor
      · intro part hpart
        exact hparts _ (hlists ▸ List.mem_map_of_mem hpart)
      · rw [chars, hlists, ← hsplit, List.intercalate_splitOn]
    · cases h
  · rintro ⟨hvalid, rfl⟩
    have hsplit : p.chars.splitOn '.' = p.root.toList :: p.keys.map String.toList := by
      refine List.splitOn_intercalate '.' (fun cs hcs => ?_) (by simp [parts])
      obtain ⟨part, hpart, rfl⟩ := List.mem_map.1 hcs
      exact (hvalid.isNameChar_of_mem hpart).2.1
    have hkeys : (p.root.toList :: p.keys.map String.toList).all isKeyText = true := by
      rw [List.all_eq_true]
      intro cs hcs
      obtain ⟨part, hpart, rfl⟩ : ∃ part ∈ p.parts, part.toList = cs := List.mem_map.1 hcs
      exact hvalid part hpart
    simp [ofChars?, hsplit, hkeys, Function.comp_def]

theorem isNameChar_of_mem_chars (h : p.IsValid) : ∀ c ∈ p.chars, isNameChar c = true := by
  intro c hc
  rcases Text.mem_or_mem_of_mem_intercalate hc with hpoint | ⟨cs, hcs, hc⟩
  · rw [List.mem_singleton.1 hpoint]
    rfl
  · obtain ⟨part, hpart, rfl⟩ := List.mem_map.1 hcs
    exact (h.isNameChar_of_mem hpart).2.2 c hc

theorem chars_ne_nil (h : p.IsValid) : p.chars ≠ [] := by
  have hroot : p.root.toList ≠ [] := (h.isNameChar_of_mem List.mem_cons_self).1
  rw [chars, parts]
  cases p.keys with
  | nil => simpa using hroot
  | cons key keys => simp [hroot]

end SlotPath

/-! ## Insides -/

namespace Segment

open Text (Blanks IsWord)

/-- whether the names and paths of a segment can be read -/
def IsValid : Segment → Prop
  | text _ => True
  | slot path => path.IsValid
  | invoke name scope => isTemplateName name = true ∧ ∀ path ∈ scope, path.IsValid

/-- what may stand behind the bracket of a tag, in front of the closing one -/
inductive Inside : Segment → Token → List Char → Prop where
  | slot {path before after} (hpath : path.IsValid) (hbefore : Blanks before) (hafter : Blanks after) :
    Inside (slot path) .openSlot (before ++ path.chars ++ after)
  | invoke {name before after} (hname : isTemplateName name = true) (hbefore : Blanks before) (hafter : Blanks after) :
    Inside (invoke name none) .openInvoke (before ++ name.toList ++ after)
  | invokeIn {name path before between after} (hname : isTemplateName name = true) (hpath : path.IsValid)
    (hbefore : Blanks before) (hbetween : Blanks between) (hne : between ≠ []) (hafter : Blanks after) :
    Inside (invoke name (some path)) .openInvoke (before ++ name.toList ++ between ++ path.chars ++ after)

theorem Inside.isValid {segment : Segment} {token : Token} {inner : List Char} (h : segment.Inside token inner) :
    segment.IsValid := by
  cases h with
  | slot hpath => exact hpath
  | invoke hname => exact ⟨hname, nofun⟩
  | invokeIn hname hpath =>
    refine ⟨hname, ?_⟩
    rintro _ ⟨⟩
    exact hpath

/-- there are no braces inside a tag -/
theorem Inside.not_brace {segment : Segment} {token : Token} {inner : List Char} (h : segment.Inside token inner) :
    ∀ c ∈ inner, Token.isBrace c = false := by
  have hblanks : ∀ {cs}, Blanks cs → ∀ c ∈ cs, Token.isBrace c = false :=
    fun h c hc => isBrace_of_isBlank (h c hc)
  have hname : ∀ {name : String}, isTemplateName name = true → ∀ c ∈ name.toList, Token.isBrace c = false :=
    fun h c hc => isBrace_of_isNameChar ((isNameText_iff.1 h).2 c hc)
  have hpath : ∀ {path : SlotPath}, path.IsValid → ∀ c ∈ path.chars, Token.isBrace c = false :=
    fun h c hc => isBrace_of_isNameChar (SlotPath.isNameChar_of_mem_chars h c hc)
  cases h with
  | slot hvalid hbefore hafter =>
    exact List.forall_mem_append.2 ⟨List.forall_mem_append.2 ⟨hblanks hbefore, hpath hvalid⟩, hblanks hafter⟩
  | invoke hvalid hbefore hafter =>
    exact List.forall_mem_append.2 ⟨List.forall_mem_append.2 ⟨hblanks hbefore, hname hvalid⟩, hblanks hafter⟩
  | invokeIn hvalid hscope hbefore hbetween hne hafter =>
    simp only [List.forall_mem_append]
    exact ⟨⟨⟨⟨hblanks hbefore, hname hvalid⟩, hblanks hbetween⟩, hpath hscope⟩, hblanks hafter⟩

theorem isWord_chars {path : SlotPath} (h : path.IsValid) : IsWord path.chars :=
  ⟨SlotPath.chars_ne_nil h, fun c hc => isBlank_of_isNameChar (SlotPath.isNameChar_of_mem_chars h c hc)⟩

theorem isWord_name {name : String} (h : isTemplateName name = true) : IsWord name.toList := by
  obtain ⟨hne, hchars⟩ := isNameText_iff.1 h
  exact ⟨hne, fun c hc => isBlank_of_isNameChar (hchars c hc)⟩

/-- a slot is read exactly where a path stands between blanks -/
theorem slot?_eq_some_iff {inner : List Char} {segment : Segment} :
    slot? inner = some segment ↔ segment.Inside .openSlot inner := by
  constructor
  · intro h
    obtain ⟨path, hpath, rfl⟩ := Option.map_eq_some_iff.1 h
    obtain ⟨hvalid, hchars⟩ := SlotPath.ofChars?_eq_some_iff.1 hpath
    obtain ⟨before, after, hbefore, hafter, hinner⟩ := Text.exists_append_trim inner
    rw [hinner, ← hchars]
    exact .slot hvalid hbefore hafter
  · rintro ⟨hvalid, hbefore, hafter⟩
    rw [slot?, Text.trim_append hbefore (isWord_chars hvalid) hafter, SlotPath.ofChars?_eq_some_iff.2 ⟨hvalid, rfl⟩,
      Option.map_some]

/-- an invocation is read exactly where a name stands between blanks, or a name and behind blanks a path -/
theorem invoke?_eq_some_iff {inner : List Char} {segment : Segment} :
    invoke? inner = some segment ↔ segment.Inside .openInvoke inner := by
  have hname : ∀ {name : List Char}, isNameText name = isTemplateName (String.ofList name) := by
    intro name
    rw [isTemplateName, String.toList_ofList]
  constructor
  · intro h
    unfold invoke? at h
    split at h
    · next word hwords =>
      split at h
      · next hvalid =>
        cases h
        obtain ⟨before, after, rfl, hbefore, -, hafter⟩ := Text.words_eq_singleton_iff.1 hwords
        have hinside := Inside.invoke (hname ▸ hvalid) hbefore hafter
        rwa [String.toList_ofList] at hinside
      · cases h
    · next word scope hwords =>
      split at h
      · next hvalid =>
        obtain ⟨path, hscope, rfl⟩ := Option.map_eq_some_iff.1 h
        obtain ⟨hpath, rfl⟩ := SlotPath.ofChars?_eq_some_iff.1 hscope
        obtain ⟨before, between, after, rfl, hbefore, -, hbetween, hne, -, hafter⟩ :=
          Text.words_eq_pair_iff.1 hwords
        have hinside := Inside.invokeIn (hname ▸ hvalid) hpath hbefore hbetween hne hafter
        rwa [String.toList_ofList] at hinside
      · cases h
    · cases h
  · intro h
    cases h with
    | @invoke name before after hvalid hbefore hafter =>
      have hwords := Text.words_eq_singleton_iff.2 ⟨before, after, rfl, hbefore, isWord_name hvalid, hafter⟩
      simp only [invoke?, hwords]
      rw [hname, String.ofList_toList, if_pos hvalid]
    | @invokeIn name path before between after hvalid hpath hbefore hbetween hne hafter =>
      have hwords := Text.words_eq_pair_iff.2
        ⟨before, between, after, rfl, hbefore, isWord_name hvalid, hbetween, hne, isWord_chars hpath, hafter⟩
      simp only [invoke?, hwords]
      rw [hname, String.ofList_toList, if_pos hvalid, SlotPath.ofChars?_eq_some_iff.2 ⟨hpath, rfl⟩, Option.map_some]

/-- what is shown between the brackets of a tag -/
def inside : Segment → List Char
  | text _ => []
  | slot path => ' ' :: (path.chars ++ [' '])
  | invoke name none => ' ' :: (name.toList ++ [' '])
  | invoke name (some path) => ' ' :: (name.toList ++ ' ' :: (path.chars ++ [' ']))

theorem inside_slot {path : SlotPath} (h : path.IsValid) : (slot path).Inside .openSlot (slot path).inside :=
  .slot h Text.blanks_space Text.blanks_space

theorem inside_invoke {name : String} {scope : Option SlotPath} (h : (invoke name scope).IsValid) :
    (invoke name scope).Inside .openInvoke (invoke name scope).inside := by
  obtain ⟨hname, hscope⟩ := h
  cases scope with
  | none => exact .invoke hname Text.blanks_space Text.blanks_space
  | some path =>
    have hinside := Inside.invokeIn hname (hscope path rfl) Text.blanks_space Text.blanks_space
      (List.cons_ne_nil _ _) Text.blanks_space
    rw [inside]
    simpa using hinside

/-- a tag can also stand as it is shown -/
theorem Inside.inside {segment : Segment} {token : Token} {inner : List Char} (h : segment.Inside token inner) :
    segment.Inside token segment.inside := by
  have hvalid := h.isValid
  cases h with
  | slot => exact inside_slot hvalid
  | invoke => exact inside_invoke hvalid
  | invokeIn => exact inside_invoke hvalid

end Segment

end BlockTemplates
