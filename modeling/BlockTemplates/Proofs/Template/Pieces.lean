/-
Bodies in pieces.

Every segment of a body is read from a piece of it: literal text from itself, and a tag from its brackets and what
stands between them (`Segment.Piece`). The pieces, one after another, are the body (`exists_pieces_ofTokens`), and
there are no others that are (`pieces_unique`). No tag of the body is lost in literal text: it is read as a tag
wherever it stands (`ofTokens_append_tag`). `tokenize_pieces` puts this together.
-/
import BlockTemplates.Proofs.Template.Stray
import Mathlib.Data.List.Chain
import Mathlib.Data.List.Forall2

namespace BlockTemplates

open Segment (ofTokens)

namespace Segment

/-! ## Pieces -/

/-- the text a segment is read from -/
inductive Piece : Segment → List Char → Prop where
  | text {cs : String} (hne : cs ≠ "") : Piece (text cs) cs.toList
  | tag {segment token inner} (hinside : segment.Inside token inner) :
    Piece segment (token.chars ++ inner ++ Token.close.chars)

variable {segment : Segment} {segments : List Segment} {token : Token} {inner : List Char}

theorem Piece.isValid {piece : List Char} (h : segment.Piece piece) : segment.IsValid := by
  cases h with
  | text => trivial
  | tag hinside => exact hinside.isValid

theorem Piece.ne_text_empty {piece : List Char} (h : segment.Piece piece) : segment ≠ .text "" := by
  rintro rfl
  cases h with
  | text hne => exact hne rfl
  | tag hinside => cases hinside

theorem piece_text {cs : List Char} (hne : cs ≠ []) : (text (String.ofList cs)).Piece cs := by
  have hpiece : (text (String.ofList cs)).Piece (String.ofList cs).toList :=
    .text fun h => hne (String.ofList_eq_empty_iff.1 h)
  rwa [String.toList_ofList] at hpiece

/-- literal text in front of pieces joins the first of them, or is a piece of its own -/
theorem exists_pieces_consText {cs : List Char} (hne : cs ≠ []) {pieces : List (List Char)}
    (h : List.Forall₂ Piece segments pieces) :
    ∃ pieces', List.Forall₂ Piece (consText cs segments) pieces' ∧ pieces'.flatten = cs ++ pieces.flatten := by
  have hnew : List.Forall₂ Piece (text (String.ofList cs) :: segments) (cs :: pieces) := .cons (piece_text hne) h
  cases h with
  | nil => exact ⟨_, hnew, rfl⟩
  | @cons segment piece segments pieces hpiece hrest =>
    cases segment with
    | text rest =>
      cases hpiece with
      | text =>
        have hjoined := piece_text (List.append_ne_nil_of_left_ne_nil hne rest.toList)
        rw [String.ofList_append, String.ofList_toList] at hjoined
        exact ⟨_, .cons hjoined hrest, List.append_assoc cs rest.toList pieces.flatten⟩
      | tag hinside => cases hinside
    | slot | invoke => exact ⟨_, hnew, rfl⟩

/-- the segments of tokens are read from pieces of what is written of the tokens -/
theorem exists_pieces_ofTokens {tokens : List Token} (h : ∀ token ∈ tokens, token.chars ≠ []) :
    ∃ pieces, List.Forall₂ Piece (ofTokens tokens) pieces ∧ pieces.flatten = tokens.flatMap Token.chars := by
  induction tokens using Token.tagInduction with
  | nil => exact ⟨[], .nil, rfl⟩
  | tag token inner segment tokens htag ih =>
    have htokens : ∀ token ∈ tokens, token.chars ≠ [] := fun token hmem =>
      h token (List.mem_cons_of_mem _ (List.mem_cons_of_mem _ (List.mem_cons_of_mem _ hmem)))
    obtain ⟨pieces, hpieces, hflatten⟩ := ih htokens
    rw [ofTokens_tag htag]
    refine ⟨_, .cons (.tag (tag?_eq_some_iff.1 htag)) hpieces, ?_⟩
    rw [List.flatten_cons, hflatten]
    simp only [List.flatMap_cons, Token.chars, List.append_assoc]
  | other token tokens hother ih =>
    obtain ⟨htoken, htokens⟩ := List.forall_mem_cons.1 h
    obtain ⟨pieces, hpieces, hflatten⟩ := ih htokens
    rw [ofTokens_other hother, List.flatMap_cons, ← hflatten]
    exact exists_pieces_consText htoken hpieces

/-! ## No other pieces -/

theorem Inside.token_unique {token' : Token} {inner' : List Char} (h : segment.Inside token inner)
    (h' : segment.Inside token' inner') : token = token' := by
  cases h <;> cases h' <;> rfl

/-- what stands inside a tag ends at the first closing bracket -/
theorem Inside.takeWhile_append (h : segment.Inside token inner) (rest : List Char) :
    (inner ++ (Token.close.chars ++ rest)).takeWhile (!Token.isBrace ·) = inner := by
  have hinner : ∀ c ∈ inner, (!Token.isBrace c) = true := fun c hc => by rw [h.not_brace c hc]; rfl
  have hclose : (Token.close.chars ++ rest).takeWhile (!Token.isBrace ·) = [] := rfl
  rw [List.takeWhile_append_of_pos hinner, hclose, List.append_nil]

/-- a segment is read from one piece only in front of a text -/
theorem Piece.unique {piece piece' rest rest' : List Char} (h : segment.Piece piece) (h' : segment.Piece piece')
    (heq : piece ++ rest = piece' ++ rest') : piece = piece' := by
  cases h with
  | text =>
    cases h' with
    | text => rfl
    | tag hinside => cases hinside
  | @tag _ token inner hinside =>
    cases h' with
    | text => cases hinside
    | @tag _ token' inner' hinside' =>
      obtain rfl := hinside.token_unique hinside'
      simp only [List.append_assoc] at heq
      have hinner := congrArg (List.takeWhile (!Token.isBrace ·)) (List.append_cancel_left heq)
      rw [hinside.takeWhile_append, hinside'.takeWhile_append] at hinner
      rw [hinner]

/-- there is only one way to cut a text into the pieces of segments -/
theorem pieces_unique {pieces pieces' : List (List Char)} (h : List.Forall₂ Piece segments pieces)
    (h' : List.Forall₂ Piece segments pieces') (heq : pieces.flatten = pieces'.flatten) : pieces = pieces' := by
  induction h generalizing pieces' with
  | nil =>
    cases h'
    rfl
  | @cons segment piece segments pieces hpiece hrest ih =>
    obtain - | ⟨hpiece', hrest'⟩ := h'
    obtain rfl := hpiece.unique hpiece' heq
    rw [ih hrest' (List.append_cancel_left heq)]

/-! ## Tags and literal text -/

theorem consText_append_tag (htag : segment.isTag = true) (cs : List Char) (before after : List Segment) :
    consText cs (before ++ segment :: after) = consText cs before ++ segment :: after := by
  cases before with
  | nil => exact consText_of_isTag htag cs after
  | cons first before => cases first <;> rfl

/-- a tag is read wherever it stands among the tokens, and all else as if it were not there -/
theorem ofTokens_append_tag (htag : token.tag? inner = some segment) (before after : List Token) :
    ofTokens (before ++ token :: .text inner :: .close :: after) = ofTokens before ++ segment :: ofTokens after := by
  induction before using Token.tagInduction with
  | nil => exact ofTokens_tag htag after
  | tag first inside other tokens hfirst ih =>
    rw [ofTokens_tag hfirst]
    exact (ofTokens_tag hfirst _).trans (congrArg (other :: ·) ih)
  | other first tokens hother ih =>
    have hbefore : first.OpensNoTag (tokens ++ token :: .text inner :: .close :: after) := by
      rw [← List.append_nil tokens] at hother
      refine hother.of_not_inner ?_
      rintro _ ⟨⟩
      exact isInner_of_tag? htag
    rw [List.cons_append, ofTokens_other hbefore, ih, ofTokens_other hother, consText_append_tag (isTag_of_tag? htag)]

/-- literal text is joined as far as the next tag -/
theorem isChain_consText {cs : List Char} (h : segments.IsChain fun a b => a.isTag = true ∨ b.isTag = true) :
    (consText cs segments).IsChain fun a b => a.isTag = true ∨ b.isTag = true := by
  unfold consText
  split
  · next rest segments =>
    rw [List.isChain_cons] at h ⊢
    exact h
  · next htext =>
    refine List.isChain_cons.2 ⟨fun first hfirst => .inr ?_, h⟩
    cases first with
    | text cs =>
      obtain ⟨others, rfl⟩ := List.head?_eq_some_iff.1 hfirst
      exact absurd rfl (htext cs others)
    | slot | invoke => rfl

theorem isChain_ofTokens (tokens : List Token) :
    (ofTokens tokens).IsChain fun a b => a.isTag = true ∨ b.isTag = true := by
  induction tokens using Token.tagInduction with
  | nil => exact .nil
  | tag token inner segment tokens htag ih =>
    rw [ofTokens_tag htag]
    exact List.isChain_cons.2 ⟨fun _ _ => .inl (isTag_of_tag? htag), ih⟩
  | other token tokens hother ih =>
    rw [ofTokens_other hother]
    exact isChain_consText ih

end Segment

theorem Token.chars_ne_nil_of_separate {tokens : List Token} (h : Separate tokens) :
    ∀ token ∈ tokens, token.chars ≠ [] := by
  induction tokens with
  | nil => nofun
  | cons token tokens ih => exact List.forall_mem_cons.2 ⟨chars_ne_nil_of_endsBefore h.1, ih h.2⟩

namespace Segment

/-- however tokens are cut, a tag among them is a piece, and in front of it are the pieces of the tokens before it -/
theorem exists_getElem?_of_inside {segment : Segment} {token : Token} {inner : List Char}
    (hinside : segment.Inside token inner) {before after : List Token}
    (htokens : ∀ other ∈ before ++ token :: .text inner :: .close :: after, other.chars ≠ [])
    {pieces : List (List Char)}
    (hpieces : List.Forall₂ Piece (ofTokens (before ++ token :: .text inner :: .close :: after)) pieces)
    (hflatten : pieces.flatten = (before ++ token :: .text inner :: .close :: after).flatMap Token.chars) :
    ∃ i, (ofTokens (before ++ token :: .text inner :: .close :: after))[i]? = some segment ∧
      pieces[i]? = some (token.chars ++ inner ++ Token.close.chars) ∧
      (pieces.take i).flatten = before.flatMap Token.chars := by
  rw [List.forall_mem_append, List.forall_mem_cons, List.forall_mem_cons, List.forall_mem_cons] at htokens
  obtain ⟨hbefore, -, -, -, hafter⟩ := htokens
  obtain ⟨front, hfront, hfrontFlat⟩ := exists_pieces_ofTokens hbefore
  obtain ⟨back, hback, hbackFlat⟩ := exists_pieces_ofTokens hafter
  rw [ofTokens_append_tag (tag?_eq_some_iff.2 hinside)] at hpieces ⊢
  -- there is no other way to cut than in front of the tag and behind it
  have hcut : pieces = front ++ (token.chars ++ inner ++ Token.close.chars) :: back := by
    refine pieces_unique hpieces (List.rel_append hfront (.cons (.tag hinside) hback)) ?_
    rw [hflatten]
    simp only [List.flatMap_append, List.flatMap_cons, List.flatten_append, List.flatten_cons, hfrontFlat, hbackFlat,
      Token.chars, List.append_assoc]
  have hlength : (ofTokens before).length = front.length := hfront.length_eq
  refine ⟨front.length, ?_, ?_, ?_⟩
  · rw [← hlength, List.getElem?_append_right le_rfl, Nat.sub_self, List.getElem?_cons_zero]
  · rw [hcut, List.getElem?_append_right le_rfl, Nat.sub_self, List.getElem?_cons_zero]
  · rw [hcut, List.take_left, hfrontFlat]

end Segment

/-- **Nothing of a body is lost, and nothing is invented.** The body can be cut, in one way, into a piece for every
segment: literal text is read from itself, none of it empty or followed by more of it, and a valid tag from its brackets
with blanks where they may stand. Wherever a bracket, text without braces that makes it a tag, and a closing bracket
are among the tokens of the body, they are the piece of this tag. -/
theorem tokenize_pieces (body : String) :
    (∀ segment ∈ tokenize body, segment.IsValid ∧ segment ≠ .text "") ∧
    (tokenize body).IsChain (fun a b => a.isTag = true ∨ b.isTag = true) ∧
    ∃ pieces, List.Forall₂ Segment.Piece (tokenize body) pieces ∧ pieces.flatten = body.toList ∧
      (∀ pieces', List.Forall₂ Segment.Piece (tokenize body) pieces' → pieces'.flatten = body.toList →
        pieces' = pieces) ∧
      ∀ before token inner after segment, Token.scan body.toList = before ++ token :: .text inner :: .close :: after →
        segment.Inside token inner →
          ∃ i, (tokenize body)[i]? = some segment ∧
            pieces[i]? = some (token.chars ++ inner ++ Token.close.chars) ∧
            (pieces.take i).flatten = before.flatMap Token.chars := by
  have htokens := Token.chars_ne_nil_of_separate (Token.separate_scan body.toList)
  obtain ⟨pieces, hpieces, hflatten⟩ := Segment.exists_pieces_ofTokens htokens
  refine ⟨?_, Segment.isChain_ofTokens _, pieces, hpieces, ?_, ?_, ?_⟩
  · have hvalid := hpieces.imp fun segment piece h => And.intro (And.intro h.isValid h.ne_text_empty) h
    exact ((List.forall₂_and_left _ _).1 hvalid).1
  · rw [hflatten, Token.chars_scan]
  · intro pieces' hpieces' hflatten'
    rw [Token.chars_scan] at hflatten
    exact Segment.pieces_unique hpieces' hpieces (hflatten'.trans hflatten.symm)
  · intro before token inner after segment hscan hinside
    rw [hscan] at htokens hpieces hflatten
    rw [tokenize, hscan]
    exact Segment.exists_getElem?_of_inside hinside htokens hpieces hflatten

end BlockTemplates
