/-
What a failed parse leaves.

A scan fails in one block: the one whose start marker is refused, whose addition fails, or that is open where the text
ends. Its error names the block and the line of its start marker, and the library is the one that the lines in front of
that line leave (`StopsAt`), or the block has been open from the start, and the library is the one from then
(`StopsOpen`). `stops_of_error` follows the scan from any state; `Library.parse_error` is the statement about whole
texts.
-/
import BlockTemplates.Proofs.Markup.Concatenation

namespace BlockTemplates

/-- the error is about the block of `name` that starts on `line` -/
def Error.IsAbout (name : String) (line : Nat) (e : Error) : Prop :=
  e = .unterminatedTemplate name line ∨ e = .duplicateTemplate name (some line)

namespace Markup

/-- a scan that stops with `e` in the block that starts on one of `lines`, where the lines in front of that line alone
are scanned to their end and leave the same library -/
def StopsAt (policy : Policy) (number : Nat) (lines : List (List Char)) (scan : Scan) (lib lib' : Library) (e : Error) :
    Prop :=
  ∃ earlier line later name, lines = earlier ++ line :: later ∧ isNameText name = true ∧
    Marker.start name <:+: line ∧ e.IsAbout (String.ofList name) (number + earlier.length) ∧
    scanLines policy number earlier scan lib = (lib', .ok ())

/-- a scan that stops with `e` in the block that is open already, and has added nothing -/
def StopsOpen (scan : Scan) (lib lib' : Library) (e : Error) : Prop :=
  ∃ name start, scan.open? = some (name, start) ∧ e.IsAbout (String.ofList name) start ∧ lib' = lib

/-- the name of the block that is open, if one is, can be the name of a template -/
def Scan.IsNamed (scan : Scan) : Prop :=
  ∀ name start, scan.open? = some (name, start) → isNameText name = true

section

variable {policy : Policy} {number : Nat} {line : List Char} {lines : List (List Char)} {scan scan' : Scan}
  {lib lib' lib'' : Library} {name : List Char} {start : Nat} {e : Error}

/-- the block starts on the first line -/
theorem StopsAt.here (hname : isNameText name = true) (hline : Marker.start name <:+: line)
    (habout : e.IsAbout (String.ofList name) number) : StopsAt policy number (line :: lines) .searching lib lib e :=
  ⟨[], line, lines, name, rfl, hname, hline, habout, rfl⟩

/-- the block starts behind the first line -/
theorem StopsAt.cons (hstep : step policy lib scan number line = .ok (lib', scan'))
    (h : StopsAt policy (number + 1) lines scan' lib' lib'' e) :
    StopsAt policy number (line :: lines) scan lib lib'' e := by
  obtain ⟨earlier, at', later, name, hlines, hname, hmarker, habout, hearlier⟩ := h
  refine ⟨line :: earlier, at', later, name, ?_, hname, hmarker, ?_, ?_⟩
  · rw [hlines, List.cons_append]
  · rwa [List.length_cons, Nat.add_comm earlier.length, ← Nat.add_assoc]
  · rw [scanLines_of_step_ok hstep, hearlier]

theorem not_stopsOpen_searching : ¬ StopsOpen .searching lib lib' e := by
  rintro ⟨name, start, hopen, -⟩
  cases hopen

theorem Scan.isNamed_searching : Scan.searching.IsNamed := by
  intro name start hopen
  cases hopen

theorem Scan.isNamed_of_open (hopen : scan.open? = some (name, start)) (hname : isNameText name = true) :
    scan.IsNamed := by
  intro n s hn
  cases hopen.symm.trans hn
  exact hname

theorem StopsOpen.isAbout (h : StopsOpen scan lib lib' e) (hopen : scan.open? = some (name, start)) :
    e.IsAbout (String.ofList name) start ∧ lib' = lib := by
  obtain ⟨n, s, hn, habout⟩ := h
  cases hopen.symm.trans hn
  exact habout

/-! ## One line -/

/-- a block whose name is a name is added, or it is a duplicate -/
theorem close_cases (hname : isNameText name = true) (body : List Char) :
    (∃ lib', close policy lib name start body = .ok lib') ∨
      close policy lib name start body = .error (.duplicateTemplate (String.ofList name) (some start)) := by
  have hclose : close policy lib name start body =
      (lib.add (Block.template ⟨name, body, start, hname⟩) policy).mapError (withLine start) :=
    close_eq ⟨name, body, start, hname⟩
  by_cases hrefused : policy = .error ∧ String.ofList name ∈ lib.names
  · have hadd := Library.add_refused (t := Block.template ⟨name, body, start, hname⟩) hrefused
    rw [hadd] at hclose
    exact .inr hclose
  · obtain ⟨lib', hadd⟩ :=
      Library.add_ok_of_not_refused (t := Block.template ⟨name, body, start, hname⟩) hrefused
    rw [hadd] at hclose
    exact .inl ⟨lib', hclose⟩

theorem Scan.closed_cases (policy : Policy) (lib : Library) (hname : isNameText name = true)
    (hopen : scan.open? = some (name, start)) (inside : List Char) :
    (∃ lib', scan.closed policy lib inside = .ok lib') ∨
      scan.closed policy lib inside = .error (.duplicateTemplate (String.ofList name) (some start)) := by
  cases scan with
  | searching => cases hopen
  | collecting n s body =>
    cases hopen
    exact close_cases hname _
  | skipping n s => exact .inl ⟨lib, rfl⟩

/-- a line in an open block closes it, goes on with it, or is an error about it -/
theorem step_of_open (policy : Policy) (lib : Library) (hname : isNameText name = true)
    (hopen : scan.open? = some (name, start)) (number : Nat) (line : List Char) :
    (∃ lib', step policy lib scan number line = .ok (lib', .searching)) ∨
      (∃ scan', scan'.open? = some (name, start) ∧ step policy lib scan number line = .ok (lib, scan')) ∨
      step policy lib scan number line = .error (.duplicateTemplate (String.ofList name) (some start)) := by
  rcases hcut : Text.cut? (Marker.stop name) line with _ | ⟨inside, after⟩
  · exact .inr (.inl ⟨_, (scan.open?_extend line).trans hopen, Scan.step_of_not_stop hopen number hcut⟩)
  · have hstep : step policy lib scan number line =
        (scan.closed policy lib inside).map fun lib => (lib, .searching) := Scan.step_of_stop hopen number hcut
    rcases Scan.closed_cases policy lib hname hopen inside with ⟨lib', hclosed⟩ | hclosed
    · rw [hclosed] at hstep
      exact .inl ⟨lib', hstep⟩
    · rw [hclosed] at hstep
      exact .inr (.inr hstep)

/-- a line between blocks opens none, or it has the start marker of a block that it opens or that is an error -/
theorem step_of_searching (policy : Policy) (lib : Library) (number : Nat) (line : List Char) :
    (∃ lib', step policy lib .searching number line = .ok (lib', .searching)) ∨
      ∃ name, isNameText name = true ∧ Marker.start name <:+: line ∧
        ((∃ scan, scan.open? = some (name, number) ∧ step policy lib .searching number line = .ok (lib, scan)) ∨
          step policy lib .searching number line =
            .error (.duplicateTemplate (String.ofList name) (some number))) := by
  rcases hcut : Marker.cutStart? line with _ | ⟨before, name, first⟩
  · exact .inl ⟨lib, step_of_no_start hcut number⟩
  obtain ⟨hname, hline⟩ := Marker.cutStart?_eq_some hcut
  have hmarker : Marker.start name <:+: line := ⟨before, first, hline.symm⟩
  have hstep : step policy lib .searching number line =
      step policy lib .searching number (Marker.start name ++ first) := by
    refine openLine_congr ?_ number
    rw [firstStart?_start hname, Marker.firstStart?_eq, hcut]
    rfl
  rw [hstep]
  by_cases hrefused : policy = .error ∧ String.ofList name ∈ lib.names
  · exact .inr ⟨name, hname, hmarker, .inr (step_refused hname hrefused)⟩
  rcases hstop : Text.cut? (Marker.stop name) first with _ | ⟨inside, after⟩
  · exact .inr ⟨name, hname, hmarker, .inl ⟨_, open?_opened number first, step_opened hname hrefused hstop⟩⟩
  · obtain ⟨lib', hadd⟩ :=
      Library.add_ok_of_not_refused (t := Block.template ⟨name, inside, number, hname⟩) hrefused
    exact .inl ⟨lib', step_closed hname hrefused hstop hadd⟩

/-! ## Many lines -/

/-- a scan that fails does so in a block that starts on one of its lines, or in the one that is open already -/
theorem stops_of_error (h : scanLines policy number lines scan lib = (lib', .error e)) (hnamed : scan.IsNamed) :
    StopsAt policy number lines scan lib lib' e ∨ StopsOpen scan lib lib' e := by
  induction lines generalizing number scan lib with
  | nil =>
    rcases hopen : scan.open? with _ | ⟨name, start⟩
    · cases scan <;> cases hopen
      cases h
    · rw [scanLines, Scan.finish_open hopen] at h
      cases h
      exact .inr ⟨name, start, hopen, .inl rfl, rfl⟩
  | cons line rest ih =>
    -- behind the line the scan goes on as the induction hypothesis says, with or without an open block
    have hclosed : ∀ {next}, step policy lib scan number line = .ok (next, .searching) →
        StopsAt policy number (line :: rest) scan lib lib' e := by
      intro next hstep
      rw [scanLines_of_step_ok hstep] at h
      exact ((ih h Scan.isNamed_searching).resolve_right not_stopsOpen_searching).cons hstep
    have hstays : ∀ {name start next}, isNameText name = true → next.open? = some (name, start) →
        step policy lib scan number line = .ok (lib, next) →
          StopsAt policy number (line :: rest) scan lib lib' e ∨ e.IsAbout (String.ofList name) start ∧ lib' = lib := by
      intro name start next hname hopen hstep
      rw [scanLines_of_step_ok hstep] at h
      exact (ih h (Scan.isNamed_of_open hopen hname)).imp (·.cons hstep) (·.isAbout hopen)
    rcases hopen : scan.open? with _ | ⟨name, start⟩
    · obtain rfl : scan = .searching := by cases scan <;> first | rfl | cases hopen
      rcases step_of_searching policy lib number line with
        ⟨next, hstep⟩ | ⟨name, hname, hmarker, ⟨next, hnext, hstep⟩ | hstep⟩
      · exact .inl (hclosed hstep)
      · rcases hstays hname hnext hstep with hstops | ⟨habout, rfl⟩
        · exact .inl hstops
        · exact .inl (.here hname hmarker habout)
      · rw [scanLines_of_step_error hstep] at h
        cases h
        exact .inl (.here hname hmarker (.inr rfl))
    · have hname := hnamed name start hopen
      rcases step_of_open policy lib hname hopen number line with ⟨next, hstep⟩ | ⟨next, hnext, hstep⟩ | hstep
      · exact .inl (hclosed hstep)
      · exact (hstays hname hnext hstep).imp_right fun habout => ⟨name, start, hopen, habout⟩
      · rw [scanLines_of_step_error hstep] at h
        cases h
        exact .inr ⟨name, start, hopen, .inr rfl, rfl⟩

end

end Markup

/-! ## Whole texts -/

def Text.lines (text : String) : List (List Char) :=
  text.toList.splitOn '\n'

def Text.firstLines (count : Nat) (text : String) : String :=
  String.ofList (['\n'].intercalate ((lines text).take count))

namespace Text

theorem newline_not_mem_of_mem_splitOn {line text : List Char} (h : line ∈ text.splitOn '\n') : '\n' ∉ line := by
  induction text using lineInduction with
  | last only honly =>
    rw [splitOn_last honly, List.mem_singleton] at h
    exact h ▸ honly
  | next first rest hfirst ih =>
    rw [splitOn_line hfirst] at h
    rcases List.mem_cons.1 h with rfl | hmem
    · exact hfirst
    · exact ih hmem

/-- the first lines have themselves as lines, or they are the empty text -/
theorem lines_firstLines (count : Nat) (text : String) :
    lines (firstLines count text) = (lines text).take count ∨
      (lines text).take count = [] ∧ lines (firstLines count text) = [[]] := by
  unfold firstLines
  rcases hlines : (lines text).take count with _ | ⟨first, rest⟩
  · exact .inr ⟨rfl, rfl⟩
  · refine .inl ?_
    rw [lines, String.toList_ofList]
    refine List.splitOn_intercalate '\n' (fun line hline => ?_) (List.cons_ne_nil _ _)
    rw [← hlines] at hline
    exact newline_not_mem_of_mem_splitOn (List.mem_of_mem_take hline)

end Text

namespace Library

/-- a text is parsed like its lines, also where it has none but the empty one -/
theorem parse_firstLines (lib : Library) (policy : Policy) (count : Nat) (input : String) :
    lib.parse (Text.firstLines count input) policy =
      Markup.scanLines policy 1 ((Text.lines input).take count) .searching lib := by
  have hparse : lib.parse (Text.firstLines count input) policy =
      Markup.scanLines policy 1 (Text.lines (Text.firstLines count input)) .searching lib := rfl
  rcases Text.lines_firstLines count input with hlines | ⟨hnone, hlines⟩
  · rw [hparse, hlines]
  · rw [hparse, hlines, hnone]
    rfl

/-- **A failed parse leaves what the lines in front of the failing block leave.** Its error names a block and the line
`n` of its start marker; that line is a line of the text and holds the marker; and parsing the `n - 1` lines in front of
it succeeds and leaves the same library. -/
theorem parse_error {lib : Library} {input : String} {policy : Policy} {e : Error}
    (h : (lib.parse input policy).2 = .error e) :
    ∃ name n, (e = .unterminatedTemplate name n ∨ e = .duplicateTemplate name (some n)) ∧
      1 ≤ n ∧ n ≤ (Text.lines input).length ∧
      (∃ line, (Text.lines input)[n - 1]? = some line ∧ isTemplateName name = true ∧
        (startMarker name).toList <:+: line) ∧
      lib.parse (Text.firstLines (n - 1) input) policy = ((lib.parse input policy).1, .ok ()) := by
  have hscan : Markup.scanLines policy 1 (Text.lines input) .searching lib = ((lib.parse input policy).1, .error e) :=
    Prod.ext rfl h
  obtain ⟨earlier, line, later, name, hlines, hname, hmarker, habout, hearlier⟩ :=
    (Markup.stops_of_error hscan Markup.Scan.isNamed_searching).resolve_right Markup.not_stopsOpen_searching
  have htake : (Text.lines input).take earlier.length = earlier := by rw [hlines, List.take_left]
  refine ⟨String.ofList name, 1 + earlier.length, habout, by omega, ?_, ⟨line, ?_, ?_, ?_⟩, ?_⟩
  · rw [hlines, List.length_append, List.length_cons]
    omega
  · rw [hlines, Nat.add_sub_cancel_left, List.getElem?_append_right le_rfl, Nat.sub_self, List.getElem?_cons_zero]
  · rwa [isTemplateName, String.toList_ofList]
  · rwa [startMarker, String.toList_ofList, String.toList_ofList]
  · rw [parse_firstLines, Nat.add_sub_cancel_left, htake, hearlier]

/-- a block that is passed over and never closed, below one that is added -/
theorem parse_error_skipped :
    let input := "<%%STARTTEMPLATE a%%>x\n<%%ENDTEMPLATE a%%>\n..<%%STARTTEMPLATE a%%>\ny\n"
    (empty.parse input .ignore).2 = .error (.unterminatedTemplate "a" 3) ∧
      empty.parse (Text.firstLines 2 input) .ignore = ((empty.parse input .ignore).1, .ok ()) := by
  intro input
  have hfailed : (empty.parse input .ignore).2 = .error (.unterminatedTemplate "a" 3) := by decide +kernel
  obtain ⟨name, n, hn | hn, -, -, -, hparse⟩ := parse_error hfailed
  · cases hn
    exact ⟨hfailed, hparse⟩
  · cases hn

end Library

end BlockTemplates
