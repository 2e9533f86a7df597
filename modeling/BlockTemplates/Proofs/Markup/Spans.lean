/-
Where the start markers of a text go.

`spans` are the blocks of a text by their places: how many characters stand before the start marker, the text between
the markers, and what is left of the line behind the end marker. A block `Finds` its own start marker and those between
its markers; those that stand behind its end marker on the same line it `Trails`: they are passed over, and so are the
blocks that they open.

If a text is parsed without an error, its blocks have been added, and every start marker in it is found or trails
(`finds_or_trails`), but not both (`Span.not_finds_of_trails`). So a start marker is lost exactly if it stands behind the
end marker of a block on the same line: `parse_finds_start`.
-/
import BlockTemplates.Proofs.Markup.Stored
import Mathlib.Data.List.Pairwise

namespace BlockTemplates

namespace Markup

/-! ## Blocks by their places -/

/-- a block of a text -/
structure Span where
  name : List Char
  /-- the line of the start marker -/
  line : Nat
  /-- how many characters stand before the start marker -/
  opens : Nat
  /-- the text between the markers -/
  inside : List Char
  /-- the text behind the end marker on its line -/
  trailing : List Char
  validName : isNameText name = true

namespace Span

def block (s : Span) : Block :=
  ⟨s.name, bodyOf s.inside, s.line, s.validName⟩

/-- how many characters stand before the end of the start marker -/
def insideStart (s : Span) : Nat :=
  s.opens + (Marker.start s.name).length

/-- how many characters stand before the end marker -/
def insideEnd (s : Span) : Nat :=
  s.insideStart + s.inside.length

/-- how many characters stand before the end of the end marker -/
def closes (s : Span) : Nat :=
  s.insideEnd + (Marker.stop s.name).length

/-- how many characters stand before the end of the line of the end marker -/
def lineEnd (s : Span) : Nat :=
  s.closes + s.trailing.length

/-- the block is the text between its start marker and the first end marker of its name behind that, in a text that has
`place` characters before it; `trailing` is what follows up to the end of the line -/
def StandsIn (s : Span) (place : Nat) (text : List Char) : Prop :=
  ∃ before rest, text = before ++ Marker.start s.name ++ s.inside ++ Marker.stop s.name ++ s.trailing ++ rest ∧
    s.opens = place + before.length ∧ ¬ Marker.stop s.name <:+: s.inside ∧ '\n' ∉ s.trailing ∧
      (rest = [] ∨ ∃ next, rest = '\n' :: next)

/-- a start marker of `name` with `place` characters before it opens the block or stands between the markers of the
block -/
def Finds (s : Span) (place : Nat) (name : List Char) : Prop :=
  (place = s.opens ∧ name = s.name) ∨ (s.insideStart ≤ place ∧ place + (Marker.start name).length ≤ s.insideEnd)

/-- a start marker of `name` with `place` characters before it stands behind the end marker, on the same line -/
def Trails (s : Span) (place : Nat) (name : List Char) : Prop :=
  s.closes ≤ place ∧ place + (Marker.start name).length ≤ s.lineEnd

end Span

/-- the blocks of a text whose first line is line `number` and that has `place` characters before it -/
def spans (number place : Nat) (text : List Char) : List Span :=
  match hstart : Marker.cutStart? text with
  | none => []
  | some (before, name, rest) =>
    match hstop : Text.cut? (Marker.stop name) rest with
    | none => []
    | some (inside, after) =>
      let line := number + before.count '\n'
      let next := place + (text.length - (Text.nextLines after).length)
      ⟨name, line, place + before.length, inside, Text.firstLine after, (Marker.cutStart?_eq_some hstart).1⟩ ::
        spans (line + inside.count '\n' + 1) next (Text.nextLines after)
termination_by text.length
decreasing_by
  have hrest := Marker.length_lt_of_cutStart? hstart
  have hafter := Text.length_after_le_of_cut? hstop
  have hnext := Text.length_nextLines_le after
  omega

theorem spans_of_no_start {text : List Char} (h : Marker.cutStart? text = none) (number place : Nat) :
    spans number place text = [] := by
  rw [spans]
  split
  · rfl
  · simp_all

theorem spans_of_tail {text before name rest : List Char} (hstart : Marker.cutStart? text = some (before, name, rest))
    (hstop : Text.cut? (Marker.stop name) rest = none) (number place : Nat) : spans number place text = [] := by
  rw [spans]
  split
  · rfl
  · next h =>
    cases hstart.symm.trans h
    split
    · rfl
    · simp_all

theorem spans_of_block {text before name rest inside after : List Char}
    (hstart : Marker.cutStart? text = some (before, name, rest))
    (hstop : Text.cut? (Marker.stop name) rest = some (inside, after)) (hname : isNameText name = true)
    (number place : Nat) :
    spans number place text =
      ⟨name, number + before.count '\n', place + before.length, inside, Text.firstLine after, hname⟩ ::
        spans (number + before.count '\n' + inside.count '\n' + 1)
          (place + (text.length - (Text.nextLines after).length)) (Text.nextLines after) := by
  rw [spans]
  split
  · simp_all
  · next h =>
    cases hstart.symm.trans h
    split
    · simp_all
    · next h' =>
      cases hstop.symm.trans h'
      rfl

/-- the places are those of the blocks of the layout -/
theorem map_block_spans (number place : Nat) (text : List Char) :
    (spans number place text).map Span.block = (layout number text).blocks := by
  induction number, text using layout.induct generalizing place with
  | case1 number text hstart => rw [spans_of_no_start hstart, layout_of_no_start hstart, List.map_nil]
  | case2 number text before name rest hstart hstop =>
    rw [spans_of_tail hstart hstop, layout_of_tail hstart hstop, List.map_nil]
  | case3 number text before name rest hstart inside after hstop line ih =>
    have hname := (Marker.cutStart?_eq_some hstart).1
    rw [spans_of_block hstart hstop hname, layout_of_block hstart hstop, List.map_cons, ih]
    rfl

/-! ## Blocks in their order -/

/-- what a text is cut into by its first block -/
theorem pieces_of_block {text before name rest inside after : List Char}
    (hstart : Marker.cutStart? text = some (before, name, rest))
    (hstop : Text.cut? (Marker.stop name) rest = some (inside, after)) :
    text = before ++ Marker.start name ++ inside ++ Marker.stop name ++ after := by
  rw [(Marker.cutStart?_eq_some hstart).2, Text.cut?_eq_some hstop]
  simp only [List.append_assoc]

/-- the pieces of a block stand in the text at their places -/
theorem standsIn_of_mem_spans (number place : Nat) (text : List Char) :
    ∀ s ∈ spans number place text, s.StandsIn place text := by
  induction number, text using layout.induct generalizing place with
  | case1 number text hstart =>
    rw [spans_of_no_start hstart]
    exact fun s h => absurd h List.not_mem_nil
  | case2 number text before name rest hstart hstop =>
    rw [spans_of_tail hstart hstop]
    exact fun s h => absurd h List.not_mem_nil
  | case3 number text before name rest hstart inside after hstop line ih =>
    have hname := (Marker.cutStart?_eq_some hstart).1
    have htext := pieces_of_block hstart hstop
    obtain ⟨hline, behind, hafter, hbehind⟩ := Text.exists_firstLine_append after
    have hpieces : text =
        before ++ Marker.start name ++ inside ++ Marker.stop name ++ Text.firstLine after ++ behind := by
      rw [htext, List.append_assoc _ (Text.firstLine after), ← hafter]
    rw [spans_of_block hstart hstop hname]
    intro s h
    rcases List.mem_cons.1 h with rfl | hnext
    · exact ⟨before, behind, hpieces, rfl, Text.not_infix_of_cut? (Marker.stop_ne_nil name) hstop, hline,
        hbehind.imp And.left fun he => ⟨_, he⟩⟩
    · obtain ⟨front, next, hnextLines, hopens, hs⟩ := ih _ s hnext
      rcases hbehind with ⟨-, hnil⟩ | rfl
      · rw [hnil, spans_of_no_start rfl] at hnext
        cases hnext
      · refine ⟨before ++ Marker.start name ++ inside ++ Marker.stop name ++ Text.firstLine after ++ '\n' :: front,
          next, ?_, ?_, hs⟩
        · rw [hpieces, hnextLines]
          simp only [List.append_assoc, List.cons_append]
        · have hlength := congrArg List.length hpieces
          rw [hopens]
          simp only [List.length_append, List.length_cons] at hlength ⊢
          omega

theorem place_le_opens {number place : Nat} {text : List Char} {s : Span} (h : s ∈ spans number place text) :
    place ≤ s.opens := by
  obtain ⟨before, rest, -, hopens, -⟩ := standsIn_of_mem_spans _ _ _ s h
  rw [hopens]
  exact Nat.le_add_right _ _

/-- the line of an end marker ends before the next start marker of a block -/
theorem pairwise_spans (number place : Nat) (text : List Char) :
    (spans number place text).Pairwise fun s t => s.lineEnd ≤ t.opens := by
  induction number, text using layout.induct generalizing place with
  | case1 number text hstart =>
    rw [spans_of_no_start hstart]
    exact List.Pairwise.nil
  | case2 number text before name rest hstart hstop =>
    rw [spans_of_tail hstart hstop]
    exact List.Pairwise.nil
  | case3 number text before name rest hstart inside after hstop line ih =>
    rw [spans_of_block hstart hstop (Marker.cutStart?_eq_some hstart).1]
    refine List.pairwise_cons.2 ⟨fun t ht => ?_, ih _⟩
    have hopens := place_le_opens ht
    obtain ⟨-, behind, hafter, hbehind⟩ := Text.exists_firstLine_append after
    have hnext : (Text.nextLines after).length ≤ behind.length := by
      rcases hbehind with ⟨rfl, hnil⟩ | rfl
      · rw [hnil]
      · exact Nat.le_succ _
    have htext := congrArg List.length (pieces_of_block hstart hstop)
    have hlength := congrArg List.length hafter
    simp only [List.length_append] at htext hlength
    simp only [Span.lineEnd, Span.closes, Span.insideEnd, Span.insideStart]
    omega

namespace Span

variable {s t : Span} {place : Nat} {name : List Char}

theorem Finds.between (h : s.Finds place name) :
    s.opens ≤ place ∧ place + (Marker.start name).length ≤ s.closes := by
  rcases h with ⟨rfl, rfl⟩ | ⟨hstart, hend⟩
  · simp only [closes, insideEnd, insideStart]
    omega
  · simp only [closes, insideEnd, insideStart] at *
    omega

/-- a marker behind an end marker is not found by the block, nor by one in front of it or behind it -/
theorem not_finds_of_order (horder : s = t ∨ s.lineEnd ≤ t.opens ∨ t.lineEnd ≤ s.opens) (hs : s.Trails place name) :
    ¬ t.Finds place name := by
  intro ht
  obtain ⟨hopens, hcloses⟩ := ht.between
  obtain ⟨hbehind, hline⟩ := hs
  have hpositive : 0 < (Marker.start name).length := Nat.zero_lt_succ _
  rcases horder with rfl | hst | hts
  · omega
  · omega
  · simp only [lineEnd, closes, insideEnd, insideStart] at *
    omega

end Span

/-- a start marker that one block trails is found by none -/
theorem Span.not_finds_of_trails {number origin place : Nat} {text name : List Char} {s t : Span}
    (hs : s ∈ spans number origin text) (ht : t ∈ spans number origin text) (h : s.Trails place name) :
    ¬ t.Finds place name := by
  refine not_finds_of_order ?_ h
  by_cases hst : s = t
  · exact .inl hst
  · refine .inr ?_
    have hboth : (spans number origin text).Pairwise fun s t => s.lineEnd ≤ t.opens ∨ t.lineEnd ≤ s.opens :=
      (pairwise_spans number origin text).imp Or.inl
    have hsymm : Std.Symm fun s t : Span => s.lineEnd ≤ t.opens ∨ t.lineEnd ≤ s.opens := ⟨fun _ _ => Or.symm⟩
    exact hboth.forall hs ht hst

/-! ## Every start marker -/

/-- a start marker that begins behind the end of a block's start marker stands between the markers of the block, or
begins behind the end marker -/
theorem occurrence_behind_start {name name' inside after front behind : List Char} (hname : isNameText name = true)
    (hname' : isNameText name' = true)
    (h : inside ++ (Marker.stop name ++ after) = front ++ Marker.start name' ++ behind) :
    (∃ gap, inside = front ++ Marker.start name' ++ gap) ∨
      ∃ gap, front = inside ++ Marker.stop name ++ gap ∧ after = gap ++ Marker.start name' ++ behind := by
  obtain ⟨others, hstart, hothers⟩ := Marker.start_eq_cons hname'
  obtain ⟨stopOthers, hstop, hstopOthers⟩ := Marker.stop_eq_cons hname
  have hseam : '<' ∉ (Marker.start name').tail := by rwa [hstart]
  have hcons : inside ++ '<' :: (stopOthers ++ after) = front ++ Marker.start name' ++ behind := by
    rw [← h, hstop, List.cons_append]
  rcases Text.occurrence_append_cons hseam hcons with hinside | ⟨gap, rfl, hgap⟩
  · exact .inl hinside
  have hstopGap : Marker.stop name ++ after = gap ++ Marker.start name' ++ behind := by rw [hstop, ← hgap]; rfl
  have hne : gap ≠ [] := by
    rintro rfl
    exact Marker.stop_append_ne_start_append _ _ _ _ hstopGap
  rw [List.append_assoc, hstart, List.cons_append] at hstopGap
  obtain ⟨rest, rfl, hafter⟩ := Text.occurrence_append (by rwa [hstop]) hne hstopGap
  refine .inr ⟨rest, by rw [List.append_assoc], ?_⟩
  rw [hafter, hstart, List.append_assoc, List.cons_append]

/-- a start marker of a text stands in its first line or in the next lines -/
theorem occurrence_line {text name front behind : List Char} (hname : isNameText name = true)
    (h : text = front ++ Marker.start name ++ behind) :
    (∃ gap, Text.firstLine text = front ++ Marker.start name ++ gap) ∨
      ∃ gap, front = Text.firstLine text ++ '\n' :: gap ∧ Text.nextLines text = gap ++ Marker.start name ++ behind := by
  obtain ⟨-, rest, htext, ⟨rfl, -⟩ | rfl⟩ := Text.exists_firstLine_append text
  · rw [List.append_nil] at htext
    exact .inl ⟨behind, htext.symm.trans h⟩
  have hseam : '\n' ∉ (Marker.start name).tail :=
    fun hmem => Marker.newline_not_mem_start hname (List.mem_of_mem_tail hmem)
  rcases Text.occurrence_append_cons hseam (htext.symm.trans h) with hline | ⟨gap, hfront, hgap⟩
  · exact .inl hline
  cases gap with
  | nil =>
    obtain ⟨others, hstart, -⟩ := Marker.start_eq_cons hname
    rw [hstart] at hgap
    cases hgap
  | cons c gap =>
    obtain ⟨rfl, hnext⟩ := List.cons.inj hgap
    exact .inr ⟨gap, hfront, hnext⟩

/-- the leftmost start marker is the only one at its place, and the others begin behind its end -/
theorem occurrence_of_cutStart? {text before name rest front name' behind : List Char}
    (hstart : Marker.cutStart? text = some (before, name, rest)) (hname' : isNameText name' = true)
    (h : text = front ++ Marker.start name' ++ behind) :
    front = before ∧ name' = name ∨
      ∃ gap, front = before ++ Marker.start name ++ gap ∧ rest = gap ++ Marker.start name' ++ behind := by
  obtain ⟨hname, htext⟩ := Marker.cutStart?_eq_some hstart
  have hle := Marker.length_le_of_cutStart? hstart hname' h
  rw [List.append_assoc] at h htext
  obtain ⟨gap, rfl⟩ := List.prefix_of_prefix_length_le ⟨_, htext.symm⟩ ⟨_, h.symm⟩ hle
  rw [htext, List.append_assoc, List.append_cancel_left_eq] at h
  cases gap with
  | nil =>
    have hfirst := Marker.start?_eq_some_iff.2 ⟨hname', h⟩
    rw [Marker.start?_eq_some_iff.2 ⟨hname, rfl⟩] at hfirst
    cases hfirst
    exact .inl ⟨List.append_nil _, rfl⟩
  | cons c gap =>
    obtain ⟨others, hmarker, hothers⟩ := Marker.start_eq_cons hname
    obtain ⟨others', hmarker', -⟩ := Marker.start_eq_cons hname'
    have hcons : Marker.start name' ++ behind = '<' :: (others' ++ behind) := by rw [hmarker', List.cons_append]
    rw [hcons] at h
    obtain ⟨gap', hfront, hrest⟩ := Text.occurrence_append (by rwa [hmarker]) (List.cons_ne_nil c gap) h
    exact .inr ⟨gap', by rw [hfront, List.append_assoc], by rw [hrest, List.append_assoc, hcons]⟩

/-- in a text whose last block is closed every start marker is found or trails -/
theorem finds_or_trails {name : List Char} (hname : isNameText name = true) (number place : Nat)
    (text front behind : List Char) (h : text = front ++ Marker.start name ++ behind) :
    (layout number text).tail = none →
      ∃ s ∈ spans number place text, s.Finds (place + front.length) name ∨ s.Trails (place + front.length) name := by
  induction number, text using layout.induct generalizing place front with
  | case1 number text hstart => exact absurd ⟨front, behind, h.symm⟩ (Marker.cutStart?_eq_none_iff.1 hstart name hname)
  | case2 number text before first rest hstart hstop =>
    rw [layout_of_tail hstart hstop]
    exact fun htail => absurd htail (Option.some_ne_none _)
  | case3 number text before first rest hstart inside after hstop line ih =>
    have hfirst := (Marker.cutStart?_eq_some hstart).1
    have hlength := congrArg List.length (pieces_of_block hstart hstop)
    rw [layout_of_block hstart hstop, spans_of_block hstart hstop hfirst]
    intro htail
    -- the marker opens the block, or stands between its markers, on the line of its end marker or behind this line
    rcases occurrence_of_cutStart? hstart hname h with ⟨rfl, rfl⟩ | ⟨gap, rfl, hrest⟩
    · exact ⟨_, List.mem_cons_self, .inl (.inl ⟨rfl, rfl⟩)⟩
    rw [Text.cut?_eq_some hstop, List.append_assoc] at hrest
    rcases occurrence_behind_start hfirst hname hrest with ⟨_, hinside⟩ | ⟨gap, rfl, hafter⟩
    · refine ⟨_, List.mem_cons_self, .inl (.inr ?_)⟩
      have hlengthInside := congrArg List.length hinside
      simp only [Span.insideEnd, Span.insideStart, List.length_append] at hlengthInside ⊢
      omega
    rcases occurrence_line hname hafter with ⟨_, hline⟩ | ⟨gap, rfl, hnext⟩
    · refine ⟨_, List.mem_cons_self, .inr ?_⟩
      have hlengthLine := congrArg List.length hline
      simp only [Span.Trails, Span.lineEnd, Span.closes, Span.insideEnd, Span.insideStart,
        List.length_append] at hlengthLine ⊢
      omega
    · obtain ⟨s, hs, hplace⟩ := ih (place + (text.length - (Text.nextLines after).length)) gap hnext htail
      refine ⟨s, List.mem_cons_of_mem _ hs, ?_⟩
      have hlengthAfter := congrArg List.length hafter
      have hlengthNext := congrArg List.length hnext
      have hsame : place + (text.length - (Text.nextLines after).length) + gap.length =
          place + (before ++ Marker.start first ++
            (inside ++ Marker.stop first ++ (Text.firstLine after ++ '\n' :: gap))).length := by
        simp only [List.length_append, List.length_cons] at hlength hlengthAfter hlengthNext ⊢
        omega
      rwa [hsame] at hplace

end Markup

/-! ## What a parse finds -/

namespace Library

open Markup

/-- if a text is parsed, its blocks have been added, and a start marker opens a block or stands between the markers of
one, unless it stands behind the end marker of a block on the same line -/
theorem parse_finds_start {policy : Policy} {input : String} {lib lib' : Library}
    (h : lib.parse input policy = (lib', .ok ())) :
    addAll policy ((spans 1 0 input.toList).map fun s => s.block.template) lib = (lib', .ok ()) ∧
    (∀ s ∈ spans 1 0 input.toList, s.StandsIn 0 input.toList) ∧
    ∀ before name after, isNameText name = true → input.toList = before ++ Marker.start name ++ after →
      ((∃ s ∈ spans 1 0 input.toList, s.Finds before.length name) ↔
        ¬ ∃ s ∈ spans 1 0 input.toList, s.Trails before.length name) := by
  obtain ⟨htail, hadd⟩ := parse_eq_ok_iff.1 h
  refine ⟨?_, standsIn_of_mem_spans 1 0 input.toList, fun before name after hname htext => ⟨?_, ?_⟩⟩
  · rwa [← map_block_spans 1 0, List.map_map] at hadd
  · rintro ⟨t, ht, hfinds⟩ ⟨s, hs, htrails⟩
    exact Span.not_finds_of_trails hs ht htrails hfinds
  · intro hnone
    obtain ⟨s, hs, hplace⟩ := finds_or_trails hname 1 0 input.toList before after htext htail
    rw [Nat.zero_add] at hplace
    exact ⟨s, hs, hplace.resolve_right fun htrails => hnone ⟨s, hs, htrails⟩⟩

def oneLine : String :=
  "<%%STARTTEMPLATE a%%>x<%%ENDTEMPLATE a%%><%%STARTTEMPLATE b%%>y<%%ENDTEMPLATE b%%>"

theorem spans_oneLine : spans 1 0 oneLine.toList = [⟨['a'], 1, 0, ['x'], oneLine.toList.drop 41, rfl⟩] := by
  have hstart : Marker.cutStart? oneLine.toList = some ([], ['a'], oneLine.toList.drop 21) := by decide +kernel
  have hstop : Text.cut? (Marker.stop ['a']) (oneLine.toList.drop 21) = some (['x'], oneLine.toList.drop 41) := by
    decide +kernel
  have hline : Text.firstLine (oneLine.toList.drop 41) = oneLine.toList.drop 41 := by decide +kernel
  have hnext : Text.nextLines (oneLine.toList.drop 41) = [] := by decide +kernel
  have hnone : Marker.cutStart? [] = none := rfl
  rw [spans_of_block hstart hstop rfl, hline, hnext, spans_of_no_start hnone]
  rfl

theorem parse_oneLine : (empty.parse oneLine .error).2 = .ok () := by
  decide +kernel

/-- the first block is found -/
theorem parse_finds_start_oneLine :
    (empty.parse oneLine .error).2 = .ok () ∧ ∃ s ∈ spans 1 0 oneLine.toList, s.Finds 0 ['a'] := by
  have hmarker : oneLine.toList = [] ++ Marker.start ['a'] ++ oneLine.toList.drop 21 := by decide +kernel
  have hnone : ¬ ∃ s ∈ spans 1 0 oneLine.toList, s.Trails 0 ['a'] := by
    rw [spans_oneLine]
    rintro ⟨s, hs, hcloses, -⟩
    cases List.mem_singleton.1 hs
    revert hcloses
    decide
  exact ⟨parse_oneLine, ((parse_finds_start (Prod.ext rfl parse_oneLine)).2.2 [] ['a'] _ (by decide) hmarker).2 hnone⟩

/-- the second block is passed over, and its start marker is no part of the first -/
theorem oneLine_passes_over :
    (empty.parse oneLine .error).2 = .ok () ∧ (empty.parse oneLine .error).1.names = ["a"] ∧
    oneLine.toList = oneLine.toList.take 41 ++ Marker.start ['b'] ++ oneLine.toList.drop 62 ∧
    ∀ s ∈ spans 1 0 oneLine.toList, ¬ s.Finds (oneLine.toList.take 41).length ['b'] := by
  refine ⟨parse_oneLine, by decide +kernel, by decide +kernel, ?_⟩
  rw [spans_oneLine]
  rintro s hs hfinds
  cases List.mem_singleton.1 hs
  revert hfinds
  unfold Span.Finds
  decide +kernel

end Library

end BlockTemplates
