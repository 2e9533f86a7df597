/-
Segments that are shown are read again.

The segments of a body, shown one after another, are the body with every tag respaced: one blank inside each bracket,
and all else as it stands (`Token.respace`, `flatMap_chars_ofTokens`). Respacing changes nothing but the text between
the brackets of a tag. So the tokens of what is shown are the respaced tokens (`Token.separate_respace`), and they are
read as the same segments (`ofTokens_respace`): `tokenize_shown`.
-/
import BlockTemplates.Proofs.Template.Tags

namespace BlockTemplates

open Segment (ofTokens)

/-! ## Tags among tokens -/

namespace Token

/-- the segment of a tag: what a bracket opens with `inner` inside -/
def tag? (token : Token) (inner : List Char) : Option Segment :=
  match token with
  | openSlot => Segment.slot? inner
  | openInvoke => Segment.invoke? inner
  | _ => none

/-- a token opens no tag in front of `tokens` -/
def OpensNoTag (token : Token) (tokens : List Token) : Prop :=
  ∀ inner rest, tokens = text inner :: close :: rest → token.tag? inner = none

/-- a tag and the tokens behind it, or a token that opens no tag and the tokens behind it -/
theorem tagInduction {motive : List Token → Prop} (nil : motive [])
    (tag : ∀ token inner segment tokens, token.tag? inner = some segment → motive tokens →
      motive (token :: text inner :: close :: tokens))
    (other : ∀ token tokens, token.OpensNoTag tokens → motive tokens → motive (token :: tokens)) (tokens : List Token) :
    motive tokens := by
  have hnone : ∀ {token : Token} {inner tokens}, token.tag? inner = none →
      token.OpensNoTag (text inner :: close :: tokens) := by
    rintro token inner tokens h _ _ ⟨⟩
    exact h
  induction tokens using Segment.ofTokens.induct with
  | case1 => exact nil
  | case2 inner tokens segment hslot ih => exact tag openSlot inner segment tokens hslot ih
  | case3 inner tokens hslot ih => exact other openSlot _ (hnone hslot) ih
  | case4 inner tokens segment hinvoke ih => exact tag openInvoke inner segment tokens hinvoke ih
  | case5 inner tokens hinvoke ih => exact other openInvoke _ (hnone hinvoke) ih
  | case6 token tokens hslot hinvoke ih =>
    refine other token tokens (fun inner rest htokens => ?_) ih
    cases token with
    | openSlot => exact absurd htokens (hslot inner rest rfl)
    | openInvoke => exact absurd htokens (hinvoke inner rest rfl)
    | _ => rfl

/-- writes the tags among the tokens as they are shown, and all else as it stands -/
def respace : List Token → List Token
  | [] => []
  | token :: text inner :: close :: tokens =>
    match token.tag? inner with
    | some segment => token :: text segment.inside :: close :: respace tokens
    | none => token :: respace (text inner :: close :: tokens)
  | token :: tokens => token :: respace tokens

end Token

namespace Segment

open Token (tag? OpensNoTag respace)

variable {token : Token} {inner : List Char} {segment : Segment} {tokens : List Token}

theorem ofTokens_tag (h : token.tag? inner = some segment) (tokens : List Token) :
    ofTokens (token :: .text inner :: .close :: tokens) = segment :: ofTokens tokens := by
  cases token with
  | openSlot =>
    have hslot : slot? inner = some segment := h
    rw [ofTokens]
    simp only [hslot]
  | openInvoke =>
    have hinvoke : invoke? inner = some segment := h
    rw [ofTokens]
    simp only [hinvoke]
  | _ => cases h

theorem ofTokens_other (h : token.OpensNoTag tokens) :
    ofTokens (token :: tokens) = consText token.chars (ofTokens tokens) := by
  rw [ofTokens.eq_def]
  split
  · next he => cases he
  · next inner rest he =>
    cases he
    have hslot : slot? inner = none := h inner rest rfl
    simp only [hslot]
  · next inner rest he =>
    cases he
    have hinvoke : invoke? inner = none := h inner rest rfl
    simp only [hinvoke]
  · next he =>
    cases he
    rfl

theorem tag?_eq_some_iff : token.tag? inner = some segment ↔ segment.Inside token inner := by
  cases token with
  | openSlot => exact slot?_eq_some_iff
  | openInvoke => exact invoke?_eq_some_iff
  | openBrace | closeBrace | close | text _ => exact ⟨nofun, nofun⟩

/-- what is shown inside a tag is read as the tag again -/
theorem tag?_inside (h : token.tag? inner = some segment) : token.tag? segment.inside = some segment :=
  tag?_eq_some_iff.2 (tag?_eq_some_iff.1 h).inside

/-- a tag is shown as its bracket, its inside and the closing bracket -/
theorem chars_of_tag? (h : token.tag? inner = some segment) :
    segment.chars = token.chars ++ segment.inside ++ Token.close.chars := by
  cases tag?_eq_some_iff.1 h with
  | slot => simp [chars, inside, Token.chars]
  | invoke => simp [chars, inside, Token.chars]
  | invokeIn => simp [chars, inside, Token.chars]

/-- the inside of a tag begins with a blank, and there are no braces in it -/
theorem inside_of_tag? (h : token.tag? inner = some segment) :
    (∃ cs, segment.inside = ' ' :: cs) ∧ ∀ c ∈ segment.inside, Token.isBrace c = false := by
  have hinside := tag?_eq_some_iff.1 h
  refine ⟨?_, hinside.inside.not_brace⟩
  cases hinside with
  | slot => exact ⟨_, rfl⟩
  | invoke => exact ⟨_, rfl⟩
  | invokeIn => exact ⟨_, rfl⟩

theorem flatMap_chars_consText (cs : List Char) (segments : List Segment) :
    (consText cs segments).flatMap chars = cs ++ segments.flatMap chars := by
  unfold consText
  split <;> simp [chars]

end Segment

namespace Token

variable {token : Token} {inner : List Char} {segment : Segment} {tokens : List Token}

theorem respace_tag (h : token.tag? inner = some segment) (tokens : List Token) :
    respace (token :: text inner :: close :: tokens) = token :: text segment.inside :: close :: respace tokens := by
  rw [respace]
  simp only [h]

theorem respace_other (h : token.OpensNoTag tokens) : respace (token :: tokens) = token :: respace tokens := by
  rw [respace.eq_def]
  split
  · next he => cases he
  · next inner rest he =>
    cases he
    have hnone := h inner rest rfl
    simp only [hnone]
  · next he =>
    cases he
    rfl

/-- respacing leaves the first token as it is -/
theorem respace_cons (token : Token) (tokens : List Token) : ∃ others, respace (token :: tokens) = token :: others := by
  by_cases h : token.OpensNoTag tokens
  · exact ⟨_, respace_other h⟩
  · simp only [OpensNoTag, not_forall] at h
    obtain ⟨inner, rest, rfl, hsome⟩ := h
    obtain ⟨segment, hsegment⟩ := Option.ne_none_iff_exists'.1 hsome
    exact ⟨_, respace_tag hsegment rest⟩

theorem respace_eq_cons {rest : List Token} (h : respace tokens = token :: rest) :
    ∃ others, tokens = token :: others := by
  cases tokens with
  | nil => cases h
  | cons first tokens =>
    obtain ⟨others, hfirst⟩ := respace_cons first tokens
    rw [hfirst] at h
    cases h
    exact ⟨tokens, rfl⟩

theorem opensNoTag_text (cs : List Char) (tokens : List Token) : (text cs).OpensNoTag tokens :=
  fun _ _ _ => rfl

/-- where no tag is opened, none is opened after respacing -/
theorem OpensNoTag.respace (h : token.OpensNoTag tokens) : token.OpensNoTag (respace tokens) := by
  intro inner rest htokens
  obtain ⟨others, rfl⟩ := respace_eq_cons htokens
  rw [respace_other (opensNoTag_text inner others)] at htokens
  obtain ⟨behind, rfl⟩ := respace_eq_cons (List.cons.inj htokens).2
  exact h inner behind rfl

end Token

namespace Segment

/-- what is shown of segments is what is written of the respaced tokens -/
theorem flatMap_chars_ofTokens (tokens : List Token) :
    (ofTokens tokens).flatMap chars = (Token.respace tokens).flatMap Token.chars := by
  induction tokens using Token.tagInduction with
  | nil => rfl
  | tag token inner segment tokens htag ih =>
    rw [ofTokens_tag htag, Token.respace_tag htag, List.flatMap_cons, ih, chars_of_tag? htag]
    simp only [List.flatMap_cons, Token.chars, List.append_assoc]
  | other token tokens hother ih =>
    rw [ofTokens_other hother, Token.respace_other hother, flatMap_chars_consText, List.flatMap_cons, ih]

/-- respaced tokens are read as the same segments -/
theorem ofTokens_respace (tokens : List Token) : ofTokens (Token.respace tokens) = ofTokens tokens := by
  induction tokens using Token.tagInduction with
  | nil => rfl
  | tag token inner segment tokens htag ih =>
    rw [ofTokens_tag htag, Token.respace_tag htag, ofTokens_tag (tag?_inside htag), ih]
  | other token tokens hother ih =>
    rw [ofTokens_other hother, Token.respace_other hother, ofTokens_other hother.respace, ih]

end Segment

/-! ## Respaced tokens are tokens -/

namespace Token

theorem chars_ne_nil_of_endsBefore {token : Token} {rest : List Char} (h : token.EndsBefore rest) :
    token.chars ≠ [] := by
  cases token with
  | text cs => exact h.1
  | _ => exact List.cons_ne_nil _ _

/-- only the first character behind a token decides whether it ends there -/
theorem EndsBefore.congr {token : Token} {rest rest' : List Char} (h : token.EndsBefore rest)
    (hhead : rest'.head? = rest.head?) : token.EndsBefore rest' := by
  unfold EndsBefore at h ⊢
  rwa [hhead]

theorem head?_respace {tokens : List Token} (h : Separate tokens) :
    ((respace tokens).flatMap chars).head? = (tokens.flatMap chars).head? := by
  cases tokens with
  | nil => rfl
  | cons token tokens =>
    obtain ⟨c, cs, hchars⟩ := List.exists_cons_of_ne_nil (chars_ne_nil_of_endsBefore h.1)
    obtain ⟨others, hrespace⟩ := respace_cons token tokens
    rw [hrespace, List.flatMap_cons, List.flatMap_cons, hchars, List.cons_append, List.cons_append, List.head?_cons,
      List.head?_cons]

theorem separate_respace {tokens : List Token} (h : Separate tokens) : Separate (respace tokens) := by
  induction tokens using tagInduction with
  | nil => trivial
  | tag token inner segment tokens htag ih =>
    obtain ⟨-, -, -, htokens⟩ := h
    obtain ⟨⟨cs, hinside⟩, hbraces⟩ := Segment.inside_of_tag? htag
    rw [respace_tag htag]
    refine ⟨?_, ⟨?_, hbraces, ?_⟩, trivial, ih htokens⟩
    · -- a blank behind a bracket does not go on with it
      cases token with
      | openSlot => simp [EndsBefore, chars, hinside]
      | openInvoke => trivial
      | _ => cases htag
    · rw [hinside]
      exact List.cons_ne_nil _ _
    · rintro _ ⟨⟩
      rfl
  | other token tokens hother ih =>
    obtain ⟨htoken, htokens⟩ := h
    rw [respace_other hother]
    exact ⟨htoken.congr (head?_respace htokens), ih htokens⟩

end Token

/-- a body is read as the same segments when it is shown and read again -/
theorem tokenize_shown (body : String) : tokenize (shown (tokenize body)) = tokenize body := by
  have hscan : Token.scan (shown (tokenize body)).toList = Token.respace (Token.scan body.toList) := by
    rw [shown, String.toList_ofList, tokenize, Segment.flatMap_chars_ofTokens]
    exact Token.scan_flatMap_chars (Token.separate_respace (Token.separate_scan body.toList))
  rw [tokenize, hscan, Segment.ofTokens_respace, tokenize]

end BlockTemplates
