/-
Texts one below the other.

A scan that succeeds leaves no block open, so the lines below are scanned as if they were a text of their own
(`scanLines_append`), only with greater line numbers (`scanLines_moveDown`). `Library.parse_append` says both of whole
texts.
-/
import BlockTemplates.Proofs.Markup.Scan

namespace BlockTemplates

namespace Text

/-- the newlines are between the lines -/
theorem length_splitOn_newline (text : List Char) : (text.splitOn '\n').length = text.count '\n' + 1 := by
  induction text using lineInduction with
  | last line hline => rw [splitOn_last hline, List.count_eq_zero_of_not_mem hline, List.length_singleton]
  | next line rest hline ih => rw [splitOn_line hline, count_line hline, List.length_cons, ih]

end Text

/-- the same error of a text that begins `distance` lines further down -/
def Error.moveDown (distance : Nat) : Error → Error
  | .unterminatedTemplate name line => .unterminatedTemplate name (line + distance)
  | .duplicateTemplate name (some line) => .duplicateTemplate name (some (line + distance))
  | e => e

namespace Markup

/-! ## Lines below a successful scan -/

theorem finish_eq_ok_iff {scan : Scan} : finish scan = .ok () ↔ scan = .searching := by
  cases scan <;> simp [finish]

/-- no state but the library goes from lines that are scanned to their end to the lines below -/
theorem scanLines_append {policy : Policy} {number : Nat} {lines : List (List Char)} {scan : Scan}
    {lib lib' : Library} (h : scanLines policy number lines scan lib = (lib', .ok ())) (below : List (List Char)) :
    scanLines policy number (lines ++ below) scan lib =
      scanLines policy (number + lines.length) below .searching lib' := by
  induction lines generalizing number scan lib with
  | nil =>
    obtain ⟨rfl, hfinish⟩ := Prod.mk.inj h
    rw [finish_eq_ok_iff.1 hfinish]
    rfl
  | cons line rest ih =>
    rcases hstep : step policy lib scan number line with e | ⟨next, open'⟩
    · rw [scanLines_of_step_error hstep] at h
      cases h
    · rw [scanLines_of_step_ok hstep] at h
      rw [List.cons_append, scanLines_of_step_ok hstep, ih h, List.length_cons]
      congr 1
      omega

/-! ## Line numbers -/

def Scan.moveDown (distance : Nat) : Scan → Scan
  | searching => searching
  | collecting name line body => collecting name (line + distance) body
  | skipping name line => skipping name (line + distance)

theorem finish_moveDown (scan : Scan) (distance : Nat) :
    finish (scan.moveDown distance) = (finish scan).mapError (Error.moveDown distance) := by
  cases scan <;> rfl

section

variable (policy : Policy) (lib : Library) (distance : Nat)

theorem close_moveDown (name : List Char) (line : Nat) (body : List Char) :
    close policy lib name (line + distance) body =
      (close policy lib name line body).mapError (Error.moveDown distance) := by
  unfold close Template.make
  split
  · simp only [bind, Except.bind, Library.add]
    split
    · cases policy <;> rfl
    · rfl
  · rfl

/-- the end of a block, as a step -/
theorem closing_moveDown (name : List Char) (line : Nat) (body : List Char) :
    (close policy lib name (line + distance) body).map (fun lib => (lib, Scan.searching)) =
      (((close policy lib name line body).map fun lib => (lib, Scan.searching)).map
        fun (lib, scan) => (lib, scan.moveDown distance)).mapError (Error.moveDown distance) := by
  rw [close_moveDown]
  cases close policy lib name line body <;> rfl

/-- what one line does depends on its number only through the numbers in blocks and errors -/
theorem step_moveDown (scan : Scan) (number : Nat) (line : List Char) :
    step policy lib (scan.moveDown distance) (number + distance) line =
      ((step policy lib scan number line).map fun (lib, scan) => (lib, scan.moveDown distance)).mapError
        (Error.moveDown distance) := by
  cases scan with
  | searching =>
    simp only [Scan.moveDown, step, openLine]
    rcases Marker.firstStart? line with _ | ⟨name, rest⟩
    · rfl
    · simp only
      split
      · rfl
      · split
        · split <;> rfl
        · rcases Text.cut? (Marker.stop name) rest with _ | ⟨body, behind⟩
          · rfl
          · exact closing_moveDown policy lib distance name number body
  | collecting name start body =>
    simp only [Scan.moveDown, step]
    rcases Text.cut? (Marker.stop name) line with _ | ⟨before, behind⟩
    · rfl
    · exact closing_moveDown policy lib distance name start _
  | skipping name start =>
    simp only [Scan.moveDown, step]
    split <;> rfl

/-- a scan that begins further down runs the same way -/
theorem scanLines_moveDown (number : Nat) (lines : List (List Char)) (scan : Scan) :
    scanLines policy (number + distance) lines (scan.moveDown distance) lib =
      ((scanLines policy number lines scan lib).1,
        (scanLines policy number lines scan lib).2.mapError (Error.moveDown distance)) := by
  induction lines generalizing number scan lib with
  | nil => simp only [scanLines, finish_moveDown]
  | cons line rest ih =>
    have hstep := step_moveDown policy lib distance scan number line
    rcases hline : step policy lib scan number line with e | ⟨next, open'⟩
    · rw [hline] at hstep
      rw [scanLines_of_step_error hstep, scanLines_of_step_error hline]
      rfl
    · rw [hline] at hstep
      rw [scanLines_of_step_ok hstep, scanLines_of_step_ok hline, Nat.add_right_comm, ih]

end

end Markup

/-! ## Whole texts -/

namespace Library

/-- **Parsing goes text by text.** Where a text is parsed to its end, parsing it with another text below leaves the same
library as parsing the other text next, and ends in the same way, with the line of an error counted from the top of the
first text: no open block, and nothing about the names that are taken, is carried over the seam but the library. -/
theorem parse_append {lib lib' : Library} {policy : Policy} {first : String}
    (h : lib.parse first policy = (lib', .ok ())) (second : String) :
    lib.parse (first ++ "\n" ++ second) policy =
      ((lib'.parse second policy).1,
        (lib'.parse second policy).2.mapError (Error.moveDown (first.toList.count '\n' + 1))) := by
  have hlines : (first ++ "\n" ++ second).toList.splitOn '\n' =
      first.toList.splitOn '\n' ++ second.toList.splitOn '\n' := by
    rw [← List.splitOn_append_cons_self, String.toList_append, String.toList_append, List.append_assoc]
    rfl
  rw [parse, hlines, Markup.scanLines_append h, Text.length_splitOn_newline]
  exact Markup.scanLines_moveDown policy lib' _ 1 _ .searching

/-- a block of one name on both sides of the seam, where that is an error -/
theorem parse_append_duplicate :
    let first := "<%%STARTTEMPLATE a%%>\nx\n<%%ENDTEMPLATE a%%>\n"
    let second := "<%%STARTTEMPLATE b%%>y<%%ENDTEMPLATE b%%>\n<%%STARTTEMPLATE a%%>"
    (empty.parse first .error).2 = .ok () ∧
      (empty.parse (first ++ "\n" ++ second) .error).1.names = ["a", "b"] ∧
      (empty.parse (first ++ "\n" ++ second) .error).2 = .error (.duplicateTemplate "a" (some 6)) := by
  intro first second
  have hok : (empty.parse first .error).2 = .ok () := by decide +kernel
  rw [parse_append (Prod.ext rfl hok) second]
  decide +kernel

end Library

end BlockTemplates
