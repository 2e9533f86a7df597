/-
A tag behind literal text.

Text without tags of its own stays literal in front of a tag: its tokens open no tag there either (`Inert`). What can
change is where the scanner finds the bracket of the tag. It takes braces in twos from the left, so after an odd number
of opening braces the first brace of the tag is taken for the second of a pair, and the tag is lost
(`scan_append_of_even`, `scan_append_of_odd`). `tokenize_append_shown` says when a tag is kept and what is read where it
is not.
-/
import BlockTemplates.Proofs.Template.Shown
import Mathlib.Algebra.Group.Nat.Even
import Mathlib.Data.List.DropRight

namespace BlockTemplates

open Segment (ofTokens)

namespace Token

/-! ## Tokens that open no tag -/

/-- none of the tokens opens a tag in front of the tokens behind it, which go on with `rest` -/
def Inert (rest : List Token) : List Token → Prop
  | [] => True
  | token :: tokens => token.OpensNoTag (tokens ++ rest) ∧ Inert rest tokens

/-- whether a tag can end with the token, or go on with it behind its bracket -/
def isInner : Token → Bool
  | text _ => true
  | close => true
  | _ => false

/-- a token that does not belong into a tag keeps the tokens before it from opening one -/
theorem OpensNoTag.of_not_inner {token : Token} {tokens rest rest' : List Token}
    (h : token.OpensNoTag (tokens ++ rest)) (hrest : ∀ first ∈ rest'.head?, first.isInner = false) :
    token.OpensNoTag (tokens ++ rest') := by
  intro inner others hshape
  have hinner : ∀ {first behind}, rest' = first :: behind → first.isInner = true → False := by
    rintro first behind rfl hfirst
    rw [hrest first rfl] at hfirst
    cases hfirst
  match tokens, hshape with
  | [], hshape => exact (hinner hshape rfl).elim
  | [_], hshape => exact (hinner (List.cons.inj hshape).2 rfl).elim
  | _ :: _ :: more, hshape =>
    cases hshape
    exact h inner (more ++ rest) rfl

theorem Inert.of_not_inner {tokens rest rest' : List Token} (h : Inert rest tokens)
    (hrest : ∀ first ∈ rest'.head?, first.isInner = false) : Inert rest' tokens := by
  induction tokens with
  | nil => trivial
  | cons token tokens ih => exact ⟨h.1.of_not_inner hrest, ih h.2⟩

theorem inert_append {tokens others rest : List Token} :
    Inert rest (tokens ++ others) ↔ Inert (others ++ rest) tokens ∧ Inert rest others := by
  induction tokens with
  | nil => simp [Inert]
  | cons token tokens ih => simp only [List.cons_append, Inert, ih, List.append_assoc, and_assoc]

end Token

namespace Segment

open Token (Inert)

instance : (segment : Segment) → Decidable segment.IsValid
  | text _ => inferInstanceAs (Decidable True)
  | slot path => inferInstanceAs (Decidable path.IsValid)
  | invoke name scope => inferInstanceAs (Decidable (isTemplateName name = true ∧ ∀ path ∈ scope, path.IsValid))

def isTag : Segment → Bool
  | text _ => false
  | _ => true

theorem isTag_of_tag? {token : Token} {inner : List Char} {segment : Segment} (h : token.tag? inner = some segment) :
    segment.isTag = true := by
  cases tag?_eq_some_iff.1 h with
  | slot => rfl
  | invoke => rfl
  | invokeIn => rfl

/-- a valid tag is what its bracket opens with its inside -/
theorem exists_tag?_inside {segment : Segment} (htag : segment.isTag = true) (hvalid : segment.IsValid) :
    ∃ token : Token, token.tag? segment.inside = some segment := by
  cases segment with
  | text cs => cases htag
  | slot path => exact ⟨.openSlot, tag?_eq_some_iff.2 (inside_slot hvalid)⟩
  | invoke name scope => exact ⟨.openInvoke, tag?_eq_some_iff.2 (inside_invoke hvalid)⟩

theorem forall_mem_consText {cs : List Char} {segments : List Segment}
    (h : ∀ segment ∈ consText cs segments, segment.isTag = false) : ∀ segment ∈ segments, segment.isTag = false := by
  unfold consText at h
  split at h
  · rw [List.forall_mem_cons] at h ⊢
    exact ⟨rfl, h.2⟩
  · exact (List.forall_mem_cons.1 h).2

/-- tokens that are read as literal text open no tag -/
theorem inert_of_forall_text {tokens : List Token} (h : ∀ segment ∈ ofTokens tokens, segment.isTag = false) :
    Inert [] tokens := by
  induction tokens using Token.tagInduction with
  | nil => trivial
  | tag token inner segment tokens htag ih =>
    rw [ofTokens_tag htag] at h
    have hsegment := h segment List.mem_cons_self
    rw [isTag_of_tag? htag] at hsegment
    cases hsegment
  | other token tokens hother ih =>
    rw [ofTokens_other hother] at h
    exact ⟨by rwa [List.append_nil], ih (forall_mem_consText h)⟩

theorem consText_consText (cs ds : List Char) (segments : List Segment) :
    consText cs (consText ds segments) = consText (cs ++ ds) segments := by
  rcases segments with _ | ⟨segment, segments⟩
  · simp [consText]
  · cases segment <;> simp [consText, String.append_assoc]

theorem consText_of_isTag {segment : Segment} (h : segment.isTag = true) (cs : List Char) (segments : List Segment) :
    consText cs (segment :: segments) = text (String.ofList cs) :: segment :: segments := by
  cases segment with
  | text _ => cases h
  | _ => rfl

/-- tokens that open no tag are literal text in front of what the tokens behind them are read as -/
theorem ofTokens_append {tokens rest : List Token} (hne : tokens ≠ []) (h : Inert rest tokens) :
    ofTokens (tokens ++ rest) = consText (tokens.flatMap Token.chars) (ofTokens rest) := by
  induction tokens with
  | nil => exact absurd rfl hne
  | cons token tokens ih =>
    rw [List.cons_append, ofTokens_other h.1, List.flatMap_cons]
    rcases tokens with _ | ⟨next, tokens⟩
    · rw [List.nil_append, List.flatMap_nil, List.append_nil]
    · rw [ih (List.cons_ne_nil _ _) h.2, consText_consText]

end Segment

/-! ## Braces in front of a bracket -/

namespace Token

/-- how many opening braces a text ends with -/
def openBraces (cs : List Char) : Nat :=
  (cs.rtakeWhile (· == '{')).length

theorem openBraces_concat (cs : List Char) : openBraces (cs ++ ['{']) = openBraces cs + 1 := by
  rw [openBraces, List.rtakeWhile_concat_pos _ _ _ rfl, List.length_append]
  rfl

theorem openBraces_concat_of_ne {c : Char} (hc : c ≠ '{') (cs : List Char) : openBraces (cs ++ [c]) = 0 := by
  rw [openBraces, List.rtakeWhile_concat_neg _ _ _ (by simpa using hc)]
  rfl

theorem exists_concat_of_openBraces_pos {cs : List Char} (h : 0 < openBraces cs) : ∃ front, cs = front ++ ['{'] := by
  rcases List.eq_nil_or_concat cs with rfl | ⟨front, c, rfl⟩
  · cases h
  · by_cases hc : c = '{'
    · exact ⟨front, by rw [hc, List.concat_eq_append]⟩
    · rw [List.concat_eq_append, openBraces_concat_of_ne hc] at h
      cases h

theorem Separate.of_append {tokens others : List Token} (h : Separate (tokens ++ others)) : Separate others := by
  induction tokens with
  | nil => exact h
  | cons token tokens ih => exact ih h.2

/-- separate tokens are separate from others if the last of them is -/
theorem separate_append {front tokens : List Token} {token : Token} (hfront : Separate (front ++ [token]))
    (htoken : token.EndsBefore (tokens.flatMap chars)) (htokens : Separate tokens) :
    Separate (front ++ token :: tokens) := by
  induction front with
  | nil => exact ⟨htoken, htokens⟩
  | cons first front ih =>
    have hlast : Separate [token] := Separate.of_append hfront.2
    have hne : (front ++ [token]).flatMap chars ≠ [] := by
      rw [List.flatMap_append, List.flatMap_singleton]
      exact List.append_ne_nil_of_right_ne_nil _ (chars_ne_nil_of_endsBefore hlast.1)
    have hhead : ((front ++ token :: tokens).flatMap chars).head? = ((front ++ [token]).flatMap chars).head? := by
      rw [List.append_cons, List.flatMap_append, List.head?_append_of_ne_nil _ hne]
    exact ⟨hfront.1.congr hhead, ih hfront.2⟩

/-- a brace starts a new token behind what does not end with one -/
theorem scan_append_of_openBraces_eq_zero {cs : List Char} (h : openBraces cs = 0) (rest : List Char) :
    scan (cs ++ '{' :: rest) = scan cs ++ scan ('{' :: rest) := by
  rcases List.eq_nil_or_concat (scan cs) with hnil | ⟨front, last, hfront⟩
  · have hcs : cs = [] := by rw [← chars_scan cs, hnil, List.flatMap_nil]
    rw [hcs]
    rfl
  rw [List.concat_eq_append] at hfront
  have hseparate : Separate (front ++ [last]) := hfront ▸ separate_scan cs
  have hlast : last.EndsBefore [] := (Separate.of_append hseparate).1
  have hrest : last.EndsBefore ((scan ('{' :: rest)).flatMap chars) := by
    rw [chars_scan]
    cases last with
    | openInvoke | close => trivial
    | openSlot | closeBrace => simp [EndsBefore]
    | text run => exact ⟨hlast.1, hlast.2.1, by rintro _ ⟨⟩; rfl⟩
    | openBrace =>
      have hcs : cs = front.flatMap chars ++ ['{'] := by
        rw [← chars_scan cs, hfront, List.flatMap_append]
        rfl
      rw [hcs, openBraces_concat] at h
      cases h
  rw [scan_eq_iff, hfront]
  refine ⟨?_, ?_⟩
  · rw [List.append_assoc]
    exact separate_append hseparate hrest (separate_scan _)
  · rw [List.flatMap_append, ← hfront, chars_scan, chars_scan]

/-- and behind what ends with pairs of braces -/
theorem scan_append_of_even {cs : List Char} (h : Even (openBraces cs)) (rest : List Char) :
    scan (cs ++ '{' :: rest) = scan cs ++ scan ('{' :: rest) := by
  obtain ⟨pairs, hpairs⟩ := h
  induction pairs generalizing cs rest with
  | zero => exact scan_append_of_openBraces_eq_zero hpairs rest
  | succ pairs ih =>
    obtain ⟨cs', rfl⟩ := exists_concat_of_openBraces_pos (by omega : 0 < openBraces cs)
    rw [openBraces_concat] at hpairs
    obtain ⟨front, rfl⟩ := exists_concat_of_openBraces_pos (by omega : 0 < openBraces cs')
    rw [openBraces_concat] at hpairs
    have hfront : openBraces front = pairs + pairs := by omega
    calc scan (front ++ ['{'] ++ ['{'] ++ '{' :: rest)
        = scan (front ++ '{' :: '{' :: '{' :: rest) := by
          simp only [List.append_assoc, List.cons_append, List.nil_append]
      _ = scan front ++ [openSlot] ++ scan ('{' :: rest) := by
        rw [ih _ hfront, List.append_assoc]
        rfl
      _ = scan (front ++ '{' :: ['{']) ++ scan ('{' :: rest) := by
        rw [ih _ hfront]
        rfl
      _ = scan (front ++ ['{'] ++ ['{']) ++ scan ('{' :: rest) := by
        rw [List.append_assoc, List.singleton_append]

/-! ## Tags behind literal text -/

/-- text without braces in front of a closing bracket -/
theorem scan_inner {inner : List Char} (hne : inner ≠ []) (hbraces : ∀ c ∈ inner, isBrace c = false) (cs : List Char) :
    scan (inner ++ (close.chars ++ cs)) = text inner :: close :: scan cs := by
  have htext : (text inner).EndsBefore (close.chars ++ cs) := ⟨hne, hbraces, by rintro _ ⟨⟩; rfl⟩
  have hclose : close.EndsBefore cs := trivial
  have hscan := scan_append htext
  rwa [scan_append hclose] at hscan

section

variable {token : Token} {segment : Segment} (htag : token.tag? segment.inside = some segment)

include htag

/-- the tokens of a tag and of what is written behind it -/
theorem scan_tag (cs : List Char) :
    scan (segment.chars ++ cs) = token :: text segment.inside :: close :: scan cs := by
  obtain ⟨⟨blank, hinside⟩, hbraces⟩ := Segment.inside_of_tag? htag
  have hne : segment.inside ≠ [] := by
    rw [hinside]
    exact List.cons_ne_nil _ _
  have hends : token.EndsBefore (segment.inside ++ (close.chars ++ cs)) := by
    rw [hinside]
    cases token with
    | openSlot => simp [EndsBefore]
    | openInvoke => trivial
    | _ => cases htag
  rw [Segment.chars_of_tag? htag, List.append_assoc, List.append_assoc, scan_append hends, scan_inner hne hbraces]

/-- the tokens of a tag behind one more brace: the braces go together in twos from the left -/
theorem scan_brace_tag (cs : List Char) :
    ∃ inner, scan ('{' :: (segment.chars ++ cs)) = openSlot :: openBrace :: text inner :: close :: scan cs := by
  obtain ⟨⟨blank, hinside⟩, hbraces⟩ := Segment.inside_of_tag? htag
  have hrest : ∀ {c inner}, c ≠ '{' → (∀ d ∈ c :: inner, isBrace d = false) →
      scan ('{' :: '{' :: '{' :: (c :: inner ++ (close.chars ++ cs))) =
        openSlot :: openBrace :: text (c :: inner) :: close :: scan cs := by
    intro c inner hc hinner
    have hslot : openSlot.EndsBefore (openBrace.chars ++ (c :: inner ++ (close.chars ++ cs))) := by
      simp [EndsBefore, chars]
    have hbrace : openBrace.EndsBefore (c :: inner ++ (close.chars ++ cs)) := by
      simpa [EndsBefore] using hc
    have hscan := scan_append hslot
    rwa [scan_append hbrace, scan_inner (List.cons_ne_nil c inner) hinner] at hscan
  rw [Segment.chars_of_tag? htag, List.append_assoc, List.append_assoc, hinside]
  rw [hinside] at hbraces
  cases token with
  | openSlot => exact ⟨_, hrest (by decide) hbraces⟩
  | openInvoke => exact ⟨_, hrest (by decide) (List.forall_mem_cons.2 ⟨(by decide : isBrace '>' = false), hbraces⟩)⟩
  | _ => cases htag

end

end Token

namespace Segment

open Token (Inert openBraces scan)

def literal (cs : List Char) : List Segment :=
  if cs = [] then [] else [text (String.ofList cs)]

theorem isInner_of_tag? {token : Token} {inner : List Char} {segment : Segment}
    (h : token.tag? inner = some segment) : token.isInner = false := by
  cases token with
  | text _ | close => cases h
  | _ => rfl

section

variable {cs : List Char} (hplain : ∀ segment ∈ ofTokens (scan cs), segment.isTag = false) {segment : Segment}
  (htag : segment.isTag = true) (hvalid : segment.IsValid)

include hplain htag hvalid

/-- a tag is read behind an even number of opening braces -/
theorem ofTokens_scan_of_even (heven : Even (openBraces cs)) (us : List Char) :
    ofTokens (scan (cs ++ (segment.chars ++ us))) = literal cs ++ segment :: ofTokens (scan us) := by
  obtain ⟨token, hinside⟩ := exists_tag?_inside htag hvalid
  obtain ⟨behind, hchars⟩ : ∃ behind, segment.chars = '{' :: behind := by
    rw [chars_of_tag? hinside]
    cases token with
    | openSlot | openInvoke => exact ⟨_, rfl⟩
    | _ => cases hinside
  have hscan : scan (cs ++ (segment.chars ++ us)) =
      scan cs ++ token :: .text segment.inside :: .close :: scan us := by
    rw [← Token.scan_tag hinside, hchars, List.cons_append, Token.scan_append_of_even heven]
  have hinert : Inert (token :: .text segment.inside :: .close :: scan us) (scan cs) := by
    refine (inert_of_forall_text hplain).of_not_inner ?_
    rintro _ ⟨⟩
    exact isInner_of_tag? hinside
  rw [hscan, literal]
  split
  · next hnil =>
    rw [hnil]
    exact ofTokens_tag hinside _
  · next hne =>
    have htokens : scan cs ≠ [] := fun hnil => hne (by rw [← Token.chars_scan cs, hnil, List.flatMap_nil])
    rw [ofTokens_append htokens hinert, Token.chars_scan, ofTokens_tag hinside, consText_of_isTag htag]
    rfl

/-- behind an odd number of opening braces a tag is literal text, and so is all in front of it -/
theorem ofTokens_scan_of_odd (hodd : ¬ Even (openBraces cs)) (us : List Char) :
    ofTokens (scan (cs ++ (segment.chars ++ us))) = consText (cs ++ segment.chars) (ofTokens (scan us)) := by
  obtain ⟨token, hinside⟩ := exists_tag?_inside htag hvalid
  have hpos : 0 < openBraces cs := Nat.pos_of_ne_zero fun hzero => hodd (by rw [hzero]; exact Even.zero)
  obtain ⟨front, rfl⟩ := Token.exists_concat_of_openBraces_pos hpos
  have heven : Even (openBraces front) := by
    rwa [Token.openBraces_concat, Nat.even_add_one, not_not] at hodd
  obtain ⟨inner, hbrace⟩ := Token.scan_brace_tag hinside us
  have hscan : scan (front ++ ['{'] ++ (segment.chars ++ us)) =
      (scan front ++ [.openSlot, .openBrace, .text inner, .close]) ++ scan us := by
    rw [List.append_assoc, List.singleton_append, Token.scan_append_of_even heven, hbrace, List.append_assoc]
    rfl
  have hfront : Inert [.openBrace] (scan front) := by
    rw [Token.scan_append_of_even heven] at hplain
    exact (Token.inert_append.1 (inert_of_forall_text hplain)).1
  have hinert : Inert (scan us) (scan front ++ [.openSlot, .openBrace, .text inner, .close]) := by
    refine Token.inert_append.2 ⟨hfront.of_not_inner (by rintro _ ⟨⟩; rfl), ?_, ?_, ?_, ?_, trivial⟩
    · nofun
    · exact fun _ _ _ => rfl
    · exact fun _ _ _ => rfl
    · exact fun _ _ _ => rfl
  have hchars : (scan front ++ [Token.openSlot, .openBrace, .text inner, .close]).flatMap Token.chars =
      front ++ ['{'] ++ segment.chars := by
    have hwhole := congrArg (List.flatMap Token.chars) hscan
    rw [Token.chars_scan, List.flatMap_append, Token.chars_scan, ← List.append_assoc] at hwhole
    exact (List.append_cancel_right hwhole).symm
  rw [hscan, ofTokens_append (by simp) hinert, hchars]

end

/-- joined text is not shorter than what it begins with -/
theorem prefix_of_consText {cs : List Char} {segments others : List Segment} {whole : String}
    (h : consText cs segments = text whole :: others) : cs <+: whole.toList := by
  unfold consText at h
  split at h <;> cases h <;> simp

end Segment

/-! ## Whole bodies -/

/-- **A tag behind literal text is kept exactly if the text ends with an even number of opening braces.** Where `front`
has no tags of its own and `tag` is shown behind it, the body is read as the literal `front`, the tag, and what stands
behind it. After an odd number of opening braces, and only there, the tag is literal text too, joined with all that is
literal around it. -/
theorem tokenize_append_shown {front : String} {tag : Segment}
    (hplain : ∀ segment ∈ tokenize front, segment.isTag = false) (htag : tag.isTag = true) (hvalid : tag.IsValid)
    (behind : String) :
    (tokenize (front ++ shown [tag] ++ behind) = Segment.literal front.toList ++ tag :: tokenize behind ↔
      Even (Token.openBraces front.toList)) ∧
    (¬ Even (Token.openBraces front.toList) →
      tokenize (front ++ shown [tag] ++ behind) =
        Segment.consText (front.toList ++ tag.chars) (tokenize behind)) := by
  have htokens : tokenize (front ++ shown [tag] ++ behind) =
      ofTokens (Token.scan (front.toList ++ (tag.chars ++ behind.toList))) := by
    simp only [tokenize, shown, String.toList_append, String.toList_ofList, List.flatMap_singleton, List.append_assoc]
  rw [htokens]
  refine ⟨⟨fun hkept => ?_, fun heven => ?_⟩, fun hodd => ?_⟩
  · by_contra hodd
    rw [Segment.ofTokens_scan_of_odd hplain htag hvalid hodd] at hkept
    have hne : front.toList ≠ [] := by
      intro hnil
      rw [hnil] at hodd
      exact hodd (by decide)
    rw [Segment.literal, if_neg hne] at hkept
    have hprefix := (Segment.prefix_of_consText hkept).length_le
    have hpositive : 0 < tag.chars.length := by
      cases tag with
      | text _ => cases htag
      | slot _ => simp [Segment.chars]
      | invoke _ scope => cases scope <;> simp [Segment.chars]
    rw [String.toList_ofList, List.length_append] at hprefix
    omega
  · exact Segment.ofTokens_scan_of_even hplain htag hvalid heven behind.toList
  · exact Segment.ofTokens_scan_of_odd hplain htag hvalid hodd behind.toList

/-- a slot behind two pairs of braces, a closing brace and a bracket that is not closed -/
theorem tokenize_append_shown_pairs :
    let front := "a \x7d \x7b\x7b> b \x7b\x7b\x7b\x7b"
    let tag := Segment.slot ⟨"c", ["d"]⟩
    (∀ segment ∈ tokenize front, segment.isTag = false) ∧ tag.isTag = true ∧ tag.IsValid ∧
      Even (Token.openBraces front.toList) ∧
      tokenize (front ++ shown [tag] ++ "\x7d\x7b\x7b e \x7d\x7d") =
        Segment.literal front.toList ++ tag :: tokenize "\x7d\x7b\x7b e \x7d\x7d" := by
  intro front tag
  have hplain : ∀ segment ∈ tokenize front, segment.isTag = false := by decide +kernel
  have hvalid : tag.IsValid := by decide +kernel
  have heven : Even (Token.openBraces front.toList) := by decide +kernel
  exact ⟨hplain, rfl, hvalid, heven, (tokenize_append_shown hplain rfl hvalid "\x7d\x7b\x7b e \x7d\x7d").1.2 heven⟩

/-- one stray brace in front of a slot -/
theorem tokenize_stray_brace :
    let front := "\x7b"
    let tag := Segment.slot ⟨"a", []⟩
    (∀ segment ∈ tokenize front, segment.isTag = false) ∧ tag.isTag = true ∧ tag.IsValid ∧
      tokenize (front ++ shown [tag] ++ "") = [.text "\x7b\x7b\x7b a \x7d\x7d"] ∧
      tokenize (front ++ shown [tag] ++ "") ≠ Segment.literal front.toList ++ tag :: tokenize "" := by
  intro front tag
  decide +kernel

end BlockTemplates
