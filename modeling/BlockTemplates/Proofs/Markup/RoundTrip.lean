/-
Libraries written as text, and read again.

A template is written as its start marker, a newline, its body and its end marker (`Template.markup`), a library as its
templates in order, one below the other (`Library.markup`). What is read from that is the library again, exactly if no
body holds the end marker of its own template (`parse_markup_iff`): the blank first line of the block is dropped, and
the end marker that is written is the leftmost. Bodies that come from texts hold no end marker of their own
(`writable_parse`, `writable_merge`), so a library that was made by parses and merges survives (`parse_markup`).
-/
import BlockTemplates.Proofs.Markup.Scan

namespace BlockTemplates

/-! ## Writing -/

/-- a template as a block: markers around the body, which begins on a line of its own -/
def Template.markup (t : Template) : String :=
  startMarker t.name ++ "\n" ++ t.body ++ endMarker t.name

/-- a library as text: its templates in order, each on the line behind the one before -/
def Library.markup (lib : Library) : String :=
  String.intercalate "\n" (lib.templates.map Template.markup)

/-- the end marker of a template does not occur in its body -/
def Template.Writable (t : Template) : Prop :=
  ¬ (endMarker t.name).toList <:+: t.body.toList

def Library.Writable (lib : Library) : Prop :=
  ∀ t ∈ lib.templates, t.Writable

/-- libraries that parses and merges make from nothing, whether they fail or not -/
inductive Library.Parsed : Library → Prop where
  | empty : Parsed Library.empty
  | parse {lib : Library} (h : lib.Parsed) (input : String) (policy : Policy) : Parsed (lib.parse input policy).1
  | merge {lib other : Library} (h : lib.Parsed) (h' : other.Parsed) (policy : Policy) :
    Parsed (lib.merge other policy).1

namespace Markup

/-! ## Bodies of blocks -/

theorem not_stop_infix_bodyOf {name rest inside after : List Char} (hname : isNameText name = true)
    (hcut : Text.cut? (Marker.stop name) rest = some (inside, after)) : ¬ Marker.stop name <:+: bodyOf inside := by
  obtain ⟨others, hstop, -⟩ := Marker.stop_eq_cons hname
  have hinside : ¬ Marker.stop name <:+: inside := Text.not_infix_of_cut? (by simp [hstop]) hcut
  exact fun hbody => hinside (hbody.trans (bodyOf_suffix inside).isInfix)

/-- every block of a text can be written -/
theorem writable_of_mem_layout {number : Nat} {text : List Char} {block : Block}
    (h : block ∈ (layout number text).blocks) : block.template.Writable := by
  induction number, text using layout.induct with
  | case1 number text hstart =>
    rw [layout_of_no_start hstart] at h
    cases h
  | case2 number text before name rest hstart hstop =>
    rw [layout_of_tail hstart hstop] at h
    cases h
  | case3 number text before name rest hstart inside after hstop line ih =>
    rw [layout_of_block hstart hstop] at h
    rcases List.mem_cons.1 h with rfl | hnext
    · have hname := (Marker.cutStart?_eq_some hstart).1
      simpa [Template.Writable, Block.template, endMarker] using not_stop_infix_bodyOf hname hstop
    · exact ih hnext

/-! ## Reading what was written -/

/-- a written block is read as its template, and reading goes on in the next line -/
theorem layout_markup {t : Template} (h : t.Writable) (after : List Char) (number : Nat) :
    ∃ (block : Block) (next : Nat), block.template = t ∧
      layout number (t.markup.toList ++ after) =
        ⟨block :: (layout next (Text.nextLines after)).blocks, (layout next (Text.nextLines after)).tail⟩ := by
  have hname : isNameText t.name.toList = true := t.validName
  have htext : t.markup.toList ++ after =
      Marker.start t.name.toList ++ ('\n' :: t.body.toList ++ Marker.stop t.name.toList ++ after) := by
    simp [Template.markup, startMarker, endMarker]
  have hstart := Marker.cutStart?_start hname ('\n' :: t.body.toList ++ Marker.stop t.name.toList ++ after)
  have hinside : ¬ Marker.stop t.name.toList <:+: '\n' :: t.body.toList := by
    obtain ⟨others, hstop, -⟩ := Marker.stop_eq_cons hname
    rw [List.infix_cons_iff, not_or]
    constructor
    · rw [hstop, List.cons_prefix_cons]
      exact fun hprefix => absurd hprefix.1 (by decide)
    · simpa [Template.Writable, endMarker] using h
  rw [htext, layout_of_block hstart (Marker.cut?_stop hname hinside after)]
  refine ⟨_, _, ?_, rfl⟩
  have hbody : bodyOf ('\n' :: t.body.toList) = t.body.toList := bodyOf_lines List.not_mem_nil t.body.toList
  simp [Block.template, hbody]

/-- a written library is read as its templates -/
theorem layout_intercalate_markup {templates : List Template} (h : ∀ t ∈ templates, t.Writable) (number : Nat) :
    (layout number (['\n'].intercalate (templates.map fun t => t.markup.toList))).blocks.map Block.template =
        templates ∧
      (layout number (['\n'].intercalate (templates.map fun t => t.markup.toList))).tail = none := by
  induction templates generalizing number with
  | nil =>
    rw [List.map_nil, List.intercalate_nil, layout_of_no_start rfl]
    exact ⟨rfl, rfl⟩
  | cons t rest ih =>
    obtain ⟨ht, hrest⟩ := List.forall_mem_cons.1 h
    cases rest with
    | nil =>
      obtain ⟨block, next, hblock, hlayout⟩ := layout_markup ht [] number
      rw [List.append_nil] at hlayout
      rw [List.map_singleton, List.intercalate_singleton, hlayout, Text.nextLines_last List.not_mem_nil]
      exact ⟨by rw [layout_of_no_start rfl, List.map_singleton, hblock], by rw [layout_of_no_start rfl]⟩
    | cons second rest =>
      have htext : ['\n'].intercalate ((t :: second :: rest).map fun t => t.markup.toList) =
          t.markup.toList ++ '\n' :: ['\n'].intercalate ((second :: rest).map fun t => t.markup.toList) := by
        simp only [List.map_cons, List.intercalate_cons_cons, List.append_assoc, List.cons_append, List.nil_append]
      have hnext : ∀ text : List Char, Text.nextLines ('\n' :: text) = text :=
        fun text => Text.nextLines_line List.not_mem_nil text
      obtain ⟨block, next, hblock, hlayout⟩ := layout_markup ht
        ('\n' :: ['\n'].intercalate ((second :: rest).map fun t => t.markup.toList)) number
      rw [htext, hlayout, hnext, List.map_cons, hblock, (ih hrest next).1]
      exact ⟨rfl, (ih hrest next).2⟩

end Markup

namespace Library

variable {lib other : Library}

/-! ## Libraries that can be written -/

theorem writable_parse (h : lib.Writable) (input : String) (policy : Policy) : (lib.parse input policy).1.Writable := by
  intro t ht
  rw [fst_parse] at ht
  rcases mem_of_addAll ht with hnew | hold
  · obtain ⟨block, hblock, rfl⟩ := List.mem_map.1 hnew
    exact Markup.writable_of_mem_layout hblock
  · exact h t hold

theorem writable_merge (h : lib.Writable) (h' : other.Writable) (policy : Policy) :
    (lib.merge other policy).1.Writable := by
  intro t ht
  rcases mem_of_addAll ht with hnew | hold
  · exact h' t hnew
  · exact h t hold

theorem Parsed.writable (h : lib.Parsed) : lib.Writable := by
  induction h with
  | empty => exact fun t ht => nomatch ht
  | parse _ input policy ih => exact writable_parse ih input policy
  | merge _ _ policy ih ih' => exact writable_merge ih ih' policy

/-! ## The round trip -/

/-- a library survives being written and read exactly if every body is free of its own end marker -/
theorem parse_markup_iff (policy : Policy) : empty.parse lib.markup policy = (lib, .ok ()) ↔ lib.Writable := by
  constructor
  · intro h
    have hparsed := (Parsed.empty.parse lib.markup policy).writable
    rwa [h] at hparsed
  · intro h
    have htext : lib.markup.toList = ['\n'].intercalate (lib.templates.map fun t => t.markup.toList) := by
      simp [markup, Function.comp_def]
    obtain ⟨hblocks, htail⟩ := Markup.layout_intercalate_markup h 1
    have hadd := addAll_templates policy lib
    rw [← hblocks] at hadd
    rw [parse, Markup.scanLines_eq_store, htext, Markup.store, Markup.storeBlocks_of_addAll_ok hadd, htail]

/-- **Markup round trip.** In a library that was made by parses and merges from nothing no body holds the end marker of
its own template. Written as text and parsed into an empty library, under whatever policy, it comes back: the same names
in the same order with the same bodies, and no error. -/
theorem parse_markup (h : lib.Parsed) :
    (∀ t ∈ lib.templates, ¬ (endMarker t.name).toList <:+: t.body.toList) ∧
      ∀ policy, empty.parse lib.markup policy = (lib, .ok ()) := by
  have hwritable : lib.Writable := h.writable
  exact ⟨hwritable, fun policy => (parse_markup_iff policy).2 hwritable⟩

/-- a block with a blank first line, its own start marker and the beginning of its own end marker, behind which a block is
open at the end of the text -/
def nestedText : String :=
  "<%%STARTTEMPLATE a%%> \n\r\n<%%STARTTEMPLATE a%%><%%ENDTEMPLATE a%%<%%ENDTEMPLATE a%%>\n<%%STARTTEMPLATE b%%>"

/-- what a parse that fails leaves, with a template merged over it whose body is a newline -/
def mergedLibrary : Library :=
  ((empty.parse nestedText .error).1.merge
    (empty.parse "<%%STARTTEMPLATE b%%>\n\n<%%ENDTEMPLATE b%%>" .ignore).1 .overwrite).1

theorem parse_markup_mergedLibrary :
    (empty.parse nestedText .error).2 = .error (.unterminatedTemplate "b" 4) ∧ mergedLibrary.Parsed ∧
      mergedLibrary.templates.map Template.body = ["\r\n<%%STARTTEMPLATE a%%><%%ENDTEMPLATE a%%", "\n"] ∧
      ∀ policy, empty.parse mergedLibrary.markup policy = (mergedLibrary, .ok ()) := by
  have hparsed : mergedLibrary.Parsed := .merge (.parse .empty _ _) (.parse .empty _ _) _
  refine ⟨?_, hparsed, ?_, (parse_markup hparsed).2⟩
  · decide +kernel
  · decide +kernel

end Library

end BlockTemplates
