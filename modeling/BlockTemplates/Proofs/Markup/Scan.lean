/-
The scanner finds the blocks of a text.

- `scanLines_start`: what stands before the leftmost start marker only counts lines.
- `scanLines_terminated` and `scanLines_unterminated`: from an open block the scanner goes to the leftmost end marker of
  its name, in whatever way the block is open.
- `scanLines_block` and `scanLines_tail`: from a start marker to the line behind the block, or to the end of the text.
- `parse_eq_store`: parsing is adding the blocks of the layout.
-/
import BlockTemplates.Proofs.Library.Growth
import BlockTemplates.Proofs.Markup.Blocks

namespace BlockTemplates

namespace Text

theorem isEmpty_trim (cs : List Char) : (trim cs).isEmpty = cs.all isBlank := by
  rw [Bool.eq_iff_iff, List.isEmpty_iff, List.all_eq_true, trim, trimEnd, trimStart, List.reverse_eq_nil_iff,
    List.dropWhile_eq_nil_iff]
  simp only [List.mem_reverse]
  constructor
  · intro h
    rw [← List.dropWhile_eq_nil_iff]
    by_contra hne
    -- the first character that is left is not blank
    have hhead := List.head_dropWhile_not isBlank hne
    rw [h _ (List.head_mem hne)] at hhead
    cases hhead
  · exact fun h c hc => h c ((List.dropWhile_sublist isBlank).mem hc)

end Text

namespace Markup

variable {policy : Policy} {lib : Library}

/-! ## Open blocks -/

namespace Scan

/-- the name and the line of the block that is open -/
def open? : Scan → Option (List Char × Nat)
  | searching => none
  | collecting name line _ => some (name, line)
  | skipping name line => some (name, line)

/-- what is open after a line without the end marker -/
def extend (line : List Char) : Scan → Scan
  | collecting name start body => collecting name start (line :: body)
  | scan => scan

/-- the library after the end marker of what is open; `inside` is the text before it since the last line -/
def closed (policy : Policy) (lib : Library) (inside : List Char) : Scan → Except Error Library
  | collecting name start body => close policy lib name start (['\n'].intercalate (inside :: body).reverse)
  | _ => .ok lib

variable {scan : Scan} {name : List Char} {start : Nat}

theorem open?_extend (scan : Scan) (line : List Char) : (scan.extend line).open? = scan.open? := by
  cases scan <;> rfl

theorem intercalate_append_line (lines : List (List Char)) (line inside : List Char) :
    ['\n'].intercalate (lines ++ [line, inside]) = ['\n'].intercalate (lines ++ [line ++ '\n' :: inside]) := by
  induction lines with
  | nil => simp [List.intercalate]
  | cons first rest ih =>
    cases rest with
    | nil => simp [List.intercalate]
    | cons second rest =>
      simp only [List.cons_append, List.intercalate_cons_cons] at ih ⊢
      rw [ih]

theorem closed_extend (scan : Scan) (line inside : List Char) :
    (scan.extend line).closed policy lib inside = scan.closed policy lib (line ++ '\n' :: inside) := by
  cases scan with
  | collecting name start body =>
    simp only [extend, closed, List.reverse_cons, List.append_assoc, List.cons_append, List.nil_append]
    rw [intercalate_append_line]
  | _ => rfl

theorem step_of_stop (hopen : scan.open? = some (name, start)) {line inside after : List Char} (number : Nat)
    (hcut : Text.cut? (Marker.stop name) line = some (inside, after)) :
    step policy lib scan number line = (scan.closed policy lib inside).map fun lib => (lib, searching) := by
  cases scan with
  | searching => cases hopen
  | collecting n s body =>
    cases hopen
    simp only [step, hcut, closed]
  | skipping n s =>
    cases hopen
    simp only [step, Text.occurs, hcut, closed]
    rfl

theorem step_of_not_stop (hopen : scan.open? = some (name, start)) {line : List Char} (number : Nat)
    (hcut : Text.cut? (Marker.stop name) line = none) :
    step policy lib scan number line = .ok (lib, scan.extend line) := by
  cases scan with
  | searching => cases hopen
  | collecting n s body =>
    cases hopen
    simp only [step, hcut, extend]
  | skipping n s =>
    cases hopen
    simp only [step, Text.occurs, hcut, extend]
    rfl

theorem finish_open (hopen : scan.open? = some (name, start)) :
    finish scan = .error (.unterminatedTemplate (String.ofList name) start) := by
  cases scan <;> cases hopen <;> rfl

end Scan

/-! ## Runs from an open block -/

theorem scanLines_of_step_ok {lib' : Library} {scan scan' : Scan} {number : Nat} {line : List Char}
    {rest : List (List Char)} (h : step policy lib scan number line = .ok (lib', scan')) :
    scanLines policy number (line :: rest) scan lib = scanLines policy (number + 1) rest scan' lib' := by
  rw [scanLines, h]

theorem scanLines_of_step_error {scan : Scan} {number : Nat} {line : List Char} {rest : List (List Char)} {e : Error}
    (h : step policy lib scan number line = .error e) :
    scanLines policy number (line :: rest) scan lib = (lib, .error e) := by
  rw [scanLines, h]

theorem scanLines_nil_text (number : Nat) :
    scanLines policy number (([] : List Char).splitOn '\n') .searching lib = (lib, .ok ()) := rfl

variable {name : List Char} {start : Nat} {scan : Scan}

/-- without its end marker an open block stays open -/
theorem scanLines_unterminated (hname : isNameText name = true) (hopen : scan.open? = some (name, start))
    {text : List Char} (hcut : Text.cut? (Marker.stop name) text = none) (number : Nat) :
    scanLines policy number (text.splitOn '\n') scan lib =
      (lib, .error (.unterminatedTemplate (String.ofList name) start)) := by
  have hstop := Marker.newline_not_mem_stop hname
  induction text using Text.lineInduction generalizing scan number with
  | last line hline =>
    have hopen' := (scan.open?_extend line).trans hopen
    rw [Text.splitOn_last hline, scanLines_of_step_ok (Scan.step_of_not_stop hopen number hcut), scanLines,
      Scan.finish_open hopen']
  | next line rest hline ih =>
    have hopen' := (scan.open?_extend line).trans hopen
    rcases hfirst : Text.cut? (Marker.stop name) line with _ | ⟨inside, after⟩
    · rw [Text.cut?_line_of_none hstop rest hfirst, Option.map_eq_none_iff] at hcut
      rw [Text.splitOn_line hline, scanLines_of_step_ok (Scan.step_of_not_stop hopen number hfirst)]
      exact ih hopen' hcut (number + 1)
    · rw [Text.cut?_line_of_some hstop rest hfirst] at hcut
      cases hcut

/-- an open block is closed at the leftmost end marker, and the search goes on in the next line -/
theorem scanLines_terminated (hname : isNameText name = true) (hopen : scan.open? = some (name, start))
    {text inside after : List Char} (hcut : Text.cut? (Marker.stop name) text = some (inside, after)) {lib' : Library}
    (hclosed : scan.closed policy lib inside = .ok lib') (number : Nat) :
    scanLines policy number (text.splitOn '\n') scan lib =
      scanLines policy (number + inside.count '\n' + 1) ((Text.nextLines after).splitOn '\n') .searching lib' := by
  have hstop := Marker.newline_not_mem_stop hname
  induction text using Text.lineInduction generalizing scan number inside with
  | last line hline =>
    obtain ⟨-, hafter⟩ := Text.not_mem_pieces_of_cut? hcut hline
    have hstep : step policy lib scan number line = .ok (lib', .searching) := by
      rw [Scan.step_of_stop hopen number hcut, hclosed]
      rfl
    rw [Text.splitOn_last hline, scanLines_of_step_ok hstep, Text.nextLines_last hafter, scanLines_nil_text]
    rfl
  | next line rest hline ih =>
    rcases hfirst : Text.cut? (Marker.stop name) line with _ | ⟨before, behind⟩
    · rw [Text.cut?_line_of_none hstop rest hfirst, Option.map_eq_some_iff] at hcut
      obtain ⟨⟨b, a⟩, hrest, he⟩ := hcut
      cases he
      have hopen' := (scan.open?_extend line).trans hopen
      have hclosed' := (scan.closed_extend line b).trans hclosed
      rw [Text.splitOn_line hline, scanLines_of_step_ok (Scan.step_of_not_stop hopen number hfirst),
        ih hopen' hrest hclosed' (number + 1), Text.count_line hline]
      congr 1
      omega
    · rw [Text.cut?_line_of_some hstop rest hfirst] at hcut
      cases hcut
      obtain ⟨hbefore, hbehind⟩ := Text.not_mem_pieces_of_cut? hfirst hline
      have hstep : step policy lib scan number line = .ok (lib', .searching) := by
        rw [Scan.step_of_stop hopen number hfirst, hclosed]
        rfl
      rw [Text.splitOn_line hline, scanLines_of_step_ok hstep, Text.nextLines_line hbehind,
        List.count_eq_zero_of_not_mem hbefore]

/-! ## Runs from a start marker -/

theorem splitOn_start_last (hname : isNameText name = true) {line : List Char} (hline : '\n' ∉ line) :
    (Marker.start name ++ line).splitOn '\n' = [Marker.start name ++ line] := by
  refine Text.splitOn_last ?_
  simp [Marker.newline_not_mem_start hname, hline]

theorem splitOn_start_line (hname : isNameText name = true) {line : List Char} (hline : '\n' ∉ line)
    (rest : List Char) :
    (Marker.start name ++ (line ++ '\n' :: rest)).splitOn '\n' =
      (Marker.start name ++ line) :: rest.splitOn '\n' := by
  have hfirst : '\n' ∉ Marker.start name ++ line := by simp [Marker.newline_not_mem_start hname, hline]
  rw [← List.append_assoc, Text.splitOn_line hfirst]

/-- only the first start marker of a line and what stands behind it matter -/
theorem openLine_congr {line line' : List Char} (h : Marker.firstStart? line = Marker.firstStart? line')
    (number : Nat) : openLine policy lib number line = openLine policy lib number line' := by
  simp only [openLine, h]

theorem step_of_no_start {line : List Char} (h : Marker.cutStart? line = none) (number : Nat) :
    step policy lib .searching number line = .ok (lib, .searching) := by
  simp only [step, openLine, Marker.firstStart?_eq, h, Option.map_none]

/-- a text without start markers is passed over -/
theorem scanLines_of_no_start {text : List Char} (hcut : Marker.cutStart? text = none) (number : Nat) :
    scanLines policy number (text.splitOn '\n') .searching lib = (lib, .ok ()) := by
  induction text using Text.lineInduction generalizing number with
  | last line hline =>
    rw [Text.splitOn_last hline, scanLines_of_step_ok (step_of_no_start hcut number)]
    rfl
  | next line rest hline ih =>
    rcases hfirst : Marker.cutStart? line with _ | ⟨before, name, behind⟩
    · rw [Marker.cutStart?_line_of_none rest hfirst, Option.map_eq_none_iff] at hcut
      rw [Text.splitOn_line hline, scanLines_of_step_ok (step_of_no_start hfirst number)]
      exact ih hcut (number + 1)
    · rw [Marker.cutStart?_line_of_some rest hfirst] at hcut
      cases hcut

/-- what stands before the leftmost start marker only counts lines -/
theorem scanLines_start {text before rest : List Char} (hcut : Marker.cutStart? text = some (before, name, rest))
    (number : Nat) :
    scanLines policy number (text.splitOn '\n') .searching lib =
      scanLines policy (number + before.count '\n') ((Marker.start name ++ rest).splitOn '\n') .searching lib := by
  have hname := (Marker.cutStart?_eq_some hcut).1
  have hopen : ∀ {line before after : List Char} (number : Nat),
      Marker.cutStart? line = some (before, name, after) →
        step policy lib .searching number line = step policy lib .searching number (Marker.start name ++ after) := by
    intro line before after number hline
    refine openLine_congr ?_ number
    rw [Marker.firstStart?_eq, Marker.firstStart?_eq, hline, Marker.cutStart?_start hname]
    rfl
  induction text using Text.lineInduction generalizing number before with
  | last line hline =>
    obtain ⟨hbefore, hrest⟩ := Marker.not_mem_pieces_of_cutStart? hcut hline
    rw [Text.splitOn_last hline, splitOn_start_last hname hrest, List.count_eq_zero_of_not_mem hbefore, Nat.add_zero,
      scanLines, scanLines, hopen number hcut]
  | next line rest hline ih =>
    rcases hfirst : Marker.cutStart? line with _ | ⟨b, n, a⟩
    · rw [Marker.cutStart?_line_of_none rest hfirst, Option.map_eq_some_iff] at hcut
      obtain ⟨⟨b, n, a⟩, hrest, he⟩ := hcut
      cases he
      rw [Text.splitOn_line hline, scanLines_of_step_ok (step_of_no_start hfirst number), ih hrest (number + 1),
        Text.count_line hline]
      congr 1
      omega
    · rw [Marker.cutStart?_line_of_some rest hfirst] at hcut
      cases hcut
      obtain ⟨hbefore, hbehind⟩ := Marker.not_mem_pieces_of_cutStart? hfirst hline
      rw [Text.splitOn_line hline, splitOn_start_line hname hbehind,
        List.count_eq_zero_of_not_mem hbefore, Nat.add_zero, scanLines, scanLines, hopen number hfirst]

theorem close_eq (block : Block) :
    close policy lib block.name block.line block.body =
      (lib.add block.template policy).mapError (withLine block.line) := by
  have hvalid : isTemplateName (String.ofList block.name) = true := block.template.validName
  simp only [close, Template.make, hvalid, dif_pos]
  rfl

theorem close_ok_of_add {block : Block} {lib' : Library} (h : lib.add block.template policy = .ok lib') :
    close policy lib block.name block.line block.body = .ok lib' := by
  rw [close_eq, h]
  rfl

/-- the scanner's tests of a name and the policy -/
theorem taken_and_iff {name : String} {p : Policy} :
    (lib.contains name && policy == p) = true ↔ policy = p ∧ name ∈ lib.names := by
  rw [Bool.and_eq_true, Library.contains_iff, beq_iff_eq, and_comm]

/-- what is open after a line with a start marker and no end marker -/
def opened (policy : Policy) (lib : Library) (name : List Char) (number : Nat) (first : List Char) : Scan :=
  if policy = .ignore ∧ String.ofList name ∈ lib.names then .skipping name number
  else .collecting name number (if first.all Text.isBlank = true then [] else [first])

theorem open?_opened (number : Nat) (first : List Char) :
    (opened policy lib name number first).open? = some (name, number) := by
  unfold opened
  split <;> rfl

/-- the end marker on a later line adds the block, with its body as read off the whole text -/
theorem closed_opened (hname : isNameText name = true) {number : Nat} {first inside : List Char} (hfirst : '\n' ∉ first)
    {lib' : Library}
    (hadd : lib.add (Block.template ⟨name, bodyOf (first ++ '\n' :: inside), number, hname⟩) policy = .ok lib') :
    (opened policy lib name number first).closed policy lib inside = .ok lib' := by
  unfold opened
  split
  · next hignored =>
    obtain ⟨rfl, hmem⟩ := hignored
    rw [Library.add_ignored hmem] at hadd
    exact hadd
  · have hclose := close_ok_of_add hadd
    rw [bodyOf_lines hfirst] at hclose
    rw [← hclose]
    split <;> simp [Scan.closed, List.intercalate]

section

variable {number : Nat} {first : List Char} (hname : isNameText name = true)

include hname

theorem firstStart?_start (first : List Char) :
    Marker.firstStart? (Marker.start name ++ first) = some (name, first) := by
  rw [Marker.firstStart?_eq, Marker.cutStart?_start hname]
  rfl

/-- a start marker is an error if its name is taken and the policy refuses that -/
theorem step_refused (h : policy = .error ∧ String.ofList name ∈ lib.names) :
    step policy lib .searching number (Marker.start name ++ first) =
      .error (.duplicateTemplate (String.ofList name) (some number)) := by
  simp only [step, openLine, firstStart?_start hname, taken_and_iff]
  rw [if_pos h]

variable (hadmitted : ¬ (policy = .error ∧ String.ofList name ∈ lib.names))

include hadmitted

theorem step_opened (hcut : Text.cut? (Marker.stop name) first = none) :
    step policy lib .searching number (Marker.start name ++ first) =
      .ok (lib, opened policy lib name number first) := by
  simp only [step, openLine, firstStart?_start hname, hcut, Text.isEmpty_trim, taken_and_iff, opened]
  rw [if_neg hadmitted]
  split <;> rfl

/-- a block on one line is added -/
theorem step_closed {inside after : List Char} (hcut : Text.cut? (Marker.stop name) first = some (inside, after))
    {lib' : Library} (hadd : lib.add (Block.template ⟨name, inside, number, hname⟩) policy = .ok lib') :
    step policy lib .searching number (Marker.start name ++ first) = .ok (lib', .searching) := by
  simp only [step, openLine, firstStart?_start hname, hcut, taken_and_iff]
  rw [if_neg hadmitted]
  split
  · next hignored =>
    obtain ⟨rfl, hmem⟩ := hignored
    rw [Library.add_ignored hmem] at hadd
    cases hadd
    rfl
  · have hclose := close_ok_of_add hadd
    simp only at hclose
    rw [hclose]
    rfl

end

/-- a start marker whose name is refused ends the scan -/
theorem scanLines_refused (hname : isNameText name = true) (h : policy = .error ∧ String.ofList name ∈ lib.names)
    (rest : List Char) (number : Nat) :
    scanLines policy number ((Marker.start name ++ rest).splitOn '\n') .searching lib =
      (lib, .error (.duplicateTemplate (String.ofList name) (some number))) := by
  induction rest using Text.lineInduction with
  | last line hline =>
    rw [splitOn_start_last hname hline]
    exact scanLines_of_step_error (step_refused hname h)
  | next line rest hline _ =>
    rw [splitOn_start_line hname hline]
    exact scanLines_of_step_error (step_refused hname h)

/-- a start marker without its end marker -/
theorem scanLines_tail (hname : isNameText name = true) {rest : List Char}
    (hcut : Text.cut? (Marker.stop name) rest = none) (number : Nat) :
    scanLines policy number ((Marker.start name ++ rest).splitOn '\n') .searching lib =
      (lib, .error (tailError policy lib name number)) := by
  have hstop := Marker.newline_not_mem_stop hname
  by_cases hrefused : policy = .error ∧ String.ofList name ∈ lib.names
  · rw [scanLines_refused hname hrefused, tailError, if_pos hrefused]
  rw [tailError, if_neg hrefused]
  induction rest using Text.lineInduction with
  | last line hline =>
    rw [splitOn_start_last hname hline, scanLines_of_step_ok (step_opened hname hrefused hcut), scanLines,
      Scan.finish_open (open?_opened number line)]
  | next line rest hline _ =>
    rcases hcutLine : Text.cut? (Marker.stop name) line with _ | ⟨inside, after⟩
    · rw [Text.cut?_line_of_none hstop rest hcutLine, Option.map_eq_none_iff] at hcut
      rw [splitOn_start_line hname hline, scanLines_of_step_ok (step_opened hname hrefused hcutLine)]
      exact scanLines_unterminated hname (open?_opened number line) hcut (number + 1)
    · rw [Text.cut?_line_of_some hstop rest hcutLine] at hcut
      cases hcut

/-- a block at the head of a text that the policy does not refuse -/
theorem scanLines_admitted (hname : isNameText name = true)
    (hadmitted : ¬ (policy = .error ∧ String.ofList name ∈ lib.names)) {rest inside after : List Char}
    (hcut : Text.cut? (Marker.stop name) rest = some (inside, after)) {number : Nat} {lib' : Library}
    (hadd : lib.add (Block.template ⟨name, bodyOf inside, number, hname⟩) policy = .ok lib') :
    scanLines policy number ((Marker.start name ++ rest).splitOn '\n') .searching lib =
      scanLines policy (number + inside.count '\n' + 1) ((Text.nextLines after).splitOn '\n') .searching lib' := by
  have hstop := Marker.newline_not_mem_stop hname
  induction rest using Text.lineInduction with
  | last line hline =>
    obtain ⟨hinside, hafter⟩ := Text.not_mem_pieces_of_cut? hcut hline
    rw [bodyOf_line hinside] at hadd
    rw [splitOn_start_last hname hline, scanLines_of_step_ok (step_closed hname hadmitted hcut hadd),
      Text.nextLines_last hafter, scanLines_nil_text]
    rfl
  | next line rest hline _ =>
    rw [splitOn_start_line hname hline]
    rcases hcutLine : Text.cut? (Marker.stop name) line with _ | ⟨before, behind⟩
    · -- the end marker is on a later line
      rw [Text.cut?_line_of_none hstop rest hcutLine, Option.map_eq_some_iff] at hcut
      obtain ⟨⟨b, a⟩, hrest, he⟩ := hcut
      cases he
      have hclosed := closed_opened hname hline hadd
      rw [scanLines_of_step_ok (step_opened hname hadmitted hcutLine),
        scanLines_terminated hname (open?_opened number line) hrest hclosed (number + 1), Text.count_line hline]
      congr 1
      omega
    · rw [Text.cut?_line_of_some hstop rest hcutLine] at hcut
      cases hcut
      obtain ⟨hinside, hbehind⟩ := Text.not_mem_pieces_of_cut? hcutLine hline
      rw [bodyOf_line hinside] at hadd
      rw [scanLines_of_step_ok (step_closed hname hadmitted hcutLine hadd), Text.nextLines_line hbehind,
        List.count_eq_zero_of_not_mem hinside, Nat.add_zero]

/-- a block at the head of a text is added, and the search goes on behind the line of its end marker -/
theorem scanLines_block (hname : isNameText name = true) {rest inside after : List Char}
    (hcut : Text.cut? (Marker.stop name) rest = some (inside, after)) (number : Nat) :
    scanLines policy number ((Marker.start name ++ rest).splitOn '\n') .searching lib =
      match lib.add (Block.template ⟨name, bodyOf inside, number, hname⟩) policy with
      | .ok lib =>
        scanLines policy (number + inside.count '\n' + 1) ((Text.nextLines after).splitOn '\n') .searching lib
      | .error _ => (lib, .error (.duplicateTemplate (String.ofList name) (some number))) := by
  by_cases hrefused : policy = .error ∧ String.ofList name ∈ lib.names
  · have hadd := Library.add_refused (t := Block.template ⟨name, bodyOf inside, number, hname⟩) hrefused
    rw [hadd, scanLines_refused hname hrefused]
  · obtain ⟨lib', hadd⟩ :=
      Library.add_ok_of_not_refused (t := Block.template ⟨name, bodyOf inside, number, hname⟩) hrefused
    rw [hadd]
    exact scanLines_admitted hname hrefused hcut hadd

/-! ## The whole text -/

/-- scanning the lines of a text is storing its layout -/
theorem scanLines_eq_store (policy : Policy) (number : Nat) (text : List Char) (lib : Library) :
    scanLines policy number (text.splitOn '\n') .searching lib = store policy (layout number text) lib := by
  induction number, text using layout.induct generalizing lib with
  | case1 number text hstart =>
    rw [layout_of_no_start hstart, scanLines_of_no_start hstart]
    rfl
  | case2 number text before name rest hstart hstop =>
    have hname := (Marker.cutStart?_eq_some hstart).1
    rw [layout_of_tail hstart hstop, scanLines_start hstart, scanLines_tail hname hstop]
    rfl
  | case3 number text before name rest hstart inside after hstop line ih =>
    have hname := (Marker.cutStart?_eq_some hstart).1
    rw [layout_of_block hstart hstop, scanLines_start hstart, scanLines_block hname hstop, store_cons]
    rcases lib.add (Block.template ⟨name, bodyOf inside, number + before.count '\n', hname⟩) policy with e | lib'
    · rfl
    · exact ih lib'

end Markup

/-- the library that a parse leaves is the one that adding the blocks of the text leaves -/
theorem Library.fst_parse (lib : Library) (input : String) (policy : Policy) :
    (lib.parse input policy).1 =
      (addAll policy ((Markup.layout 1 input.toList).blocks.map Markup.Block.template) lib).1 := by
  rw [parse, Markup.scanLines_eq_store, Markup.fst_store, Markup.fst_storeBlocks]

/-- **Parsing is adding the blocks of the whole text.** Whatever the library, the text and the policy: the library and
the outcome are those of adding the blocks of the text's layout in order. -/
theorem Library.parse_eq_store (lib : Library) (input : String) (policy : Policy) :
    lib.parse input policy = Markup.store policy (Markup.layout 1 input.toList) lib :=
  Markup.scanLines_eq_store policy 1 input.toList lib

end BlockTemplates
