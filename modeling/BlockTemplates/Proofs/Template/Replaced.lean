/-
Tags that are replaced by other tags.

Only the inside of a tag is different in another tag with the same bracket. So where every tag among the tokens of a
body is replaced by one with its bracket, the tokens are those of another body, which is read as the replaced segments
(`Token.Replaced`, `Token.exists_replaced`). These are read again when they are shown, as all segments of a body are:
`tokenize_shown_map`.
-/
import BlockTemplates.Proofs.Template.Stray

namespace BlockTemplates

open Segment (ofTokens)

/-- a change of segments that keeps literal text, and the brackets of tags -/
structure Segment.KeepsBrackets (f : Segment → Segment) : Prop where
  text : ∀ cs, f (.text cs) = .text cs
  isTag : ∀ segment, (f segment).isTag = segment.isTag
  tag : ∀ {token : Token} {inner segment}, token.tag? inner = some segment →
    token.tag? (f segment).inside = some (f segment)

namespace Segment

variable {f : Segment → Segment}

theorem KeepsBrackets.map_consText (hf : KeepsBrackets f) (cs : List Char) (segments : List Segment) :
    (consText cs segments).map f = consText cs (segments.map f) := by
  rcases segments with _ | ⟨segment, segments⟩
  · simp [consText, hf.text]
  · cases htag : segment.isTag with
    | true =>
      have htag' : (f segment).isTag = true := (hf.isTag segment).trans htag
      rw [consText_of_isTag htag, List.map_cons, List.map_cons, consText_of_isTag htag', hf.text]
    | false =>
      cases segment with
      | text rest => simp [consText, hf.text]
      | slot path | invoke name scope => cases htag

end Segment

namespace Token

variable {f : Segment → Segment} {tokens tokens' : List Token}

/-- the tokens of a body with every tag replaced -/
structure Replaced (f : Segment → Segment) (tokens tokens' : List Token) : Prop where
  separate : Separate tokens'
  reads : ofTokens tokens' = (ofTokens tokens).map f
  head : tokens'.head? = tokens.head?
  /-- where the inside of a tag could stand, one could stand before -/
  inner : ∀ {inner rest'}, tokens' = text inner :: close :: rest' → ∃ rest, tokens = text inner :: close :: rest

theorem Replaced.opensNoTag (h : Replaced f tokens tokens') {token : Token} (hother : token.OpensNoTag tokens) :
    token.OpensNoTag tokens' := by
  intro inner rest' htokens'
  obtain ⟨rest, htokens⟩ := h.inner htokens'
  exact hother inner rest htokens

/-- the tokens begin with the same character as before -/
theorem Replaced.head?_chars (h : Replaced f tokens tokens') (hseparate : Separate tokens) :
    (tokens'.flatMap chars).head? = (tokens.flatMap chars).head? := by
  have hhead := h.head
  cases tokens with
  | nil =>
    rw [List.head?_nil, List.head?_eq_none_iff] at hhead
    rw [hhead]
  | cons token tokens =>
    obtain ⟨others, rfl⟩ := List.head?_eq_some_iff.1 hhead
    have hne := chars_ne_nil_of_endsBefore hseparate.1
    rw [List.flatMap_cons, List.flatMap_cons, List.head?_append_of_ne_nil _ hne, List.head?_append_of_ne_nil _ hne]

theorem replaced_nil : Replaced f [] [] :=
  ⟨trivial, rfl, rfl, nofun⟩

theorem Replaced.tag (h : Replaced f tokens tokens') (hf : Segment.KeepsBrackets f) {token : Token} {inner : List Char}
    {segment : Segment} (htag : token.tag? inner = some segment) :
    Replaced f (token :: text inner :: close :: tokens)
      (token :: text (f segment).inside :: close :: tokens') where
  separate := by
    have hscan := scan_tag (hf.tag htag) (tokens'.flatMap chars)
    rw [scan_flatMap_chars h.separate] at hscan
    rw [← hscan]
    exact separate_scan _
  reads := by
    rw [Segment.ofTokens_tag (hf.tag htag), Segment.ofTokens_tag htag, h.reads, List.map_cons]
  head := rfl
  inner := nofun

theorem Replaced.other (h : Replaced f tokens tokens') (hf : Segment.KeepsBrackets f) {token : Token}
    (hseparate : Separate (token :: tokens)) (hother : token.OpensNoTag tokens) :
    Replaced f (token :: tokens) (token :: tokens') where
  separate := ⟨hseparate.1.congr (h.head?_chars hseparate.2), h.separate⟩
  reads := by
    rw [Segment.ofTokens_other (h.opensNoTag hother), Segment.ofTokens_other hother, h.reads, hf.map_consText]
  head := rfl
  inner := by
    rintro inner rest' htokens'
    obtain ⟨rfl, hrest⟩ := List.cons.inj htokens'
    have hhead := h.head
    rw [hrest, List.head?_cons] at hhead
    obtain ⟨rest, rfl⟩ := List.head?_eq_some_iff.1 hhead.symm
    exact ⟨rest, rfl⟩

/-- the tags of a body can be replaced -/
theorem exists_replaced (hf : Segment.KeepsBrackets f) (h : Separate tokens) :
    ∃ tokens', Replaced f tokens tokens' := by
  induction tokens using tagInduction with
  | nil => exact ⟨[], replaced_nil⟩
  | tag token inner segment tokens htag ih =>
    obtain ⟨-, -, -, htokens⟩ := h
    obtain ⟨tokens', hreplaced⟩ := ih htokens
    exact ⟨_, hreplaced.tag hf htag⟩
  | other token tokens hother ih =>
    obtain ⟨tokens', hreplaced⟩ := ih h.2
    exact ⟨_, hreplaced.other hf h hother⟩

end Token

/-- the segments of a body with its tags replaced are read again when they are shown -/
theorem tokenize_shown_map {f : Segment → Segment} (hf : Segment.KeepsBrackets f) (body : String) :
    tokenize (shown ((tokenize body).map f)) = (tokenize body).map f := by
  obtain ⟨tokens, hreplaced⟩ := Token.exists_replaced hf (Token.separate_scan body.toList)
  have hbody : tokenize (String.ofList (tokens.flatMap Token.chars)) = (tokenize body).map f := by
    rw [tokenize, String.toList_ofList, Token.scan_flatMap_chars hreplaced.separate, hreplaced.reads, tokenize]
  rw [← hbody, tokenize_shown]

end BlockTemplates
