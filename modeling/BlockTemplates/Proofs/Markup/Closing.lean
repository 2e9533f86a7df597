/-
Blocks are closed without an error.

A line closes a block where it has the end marker (`Closes`), and only there a template is added. The name of the block
can be the name of a template, and it is free unless taken names are overwritten: so it was at the start marker, and
nothing is added while a block is open. `Scan.Ready` is this invariant. `adds_of_closes` is what it is good for,
`step_cases` says what a line does in a state that has it, and `ready_stateBehind` keeps it from line to line.
`Library.parse_closes` is the statement about whole texts.
-/
import BlockTemplates.Proofs.Library.Effect
import BlockTemplates.Proofs.Markup.Failure
import Mathlib.Tactic.Tauto

namespace BlockTemplates

/-! ## Names in start markers -/

namespace Marker

/-- the characters of the class `[-0-9A-Za-z_.]` -/
def inNameClass (c : Char) : Bool :=
  c == '-' || ('0' ≤ c && c ≤ '9') || ('A' ≤ c && c ≤ 'Z') || ('a' ≤ c && c ≤ 'z') || c == '_' || c == '.'

/-- the leftmost match of `<%%STARTTEMPLATE ([-0-9A-Za-z_.]+)%%>` in the line captures `name`, and `rest` is behind -/
def Captures (line name rest : List Char) : Prop :=
  (name ≠ [] ∧ ∀ c ∈ name, inNameClass c = true) ∧ ∃ before, line = before ++ start name ++ rest ∧
    ∀ before' name' rest', (name' ≠ [] ∧ ∀ c ∈ name', inNameClass c = true) →
      line = before' ++ start name' ++ rest' → before.length ≤ before'.length

/-- the letters and digits are three ranges of the class -/
theorem isAsciiAlphanumeric_iff {c : Char} :
    isAsciiAlphanumeric c = true ↔ ('A' ≤ c ∧ c ≤ 'Z' ∨ 'a' ≤ c ∧ c ≤ 'z') ∨ '0' ≤ c ∧ c ≤ '9' := by
  have halpha : c.isAlpha = (c.isUpper || c.isLower) := rfl
  have hupper : c.isUpper = decide ('A' ≤ c ∧ c ≤ 'Z') := rfl
  have hlower : c.isLower = (decide ('a' ≤ c) && decide (c ≤ 'z')) := rfl
  have hdigit : c.isDigit = (decide ('0' ≤ c) && decide (c ≤ '9')) := rfl
  simp only [isAsciiAlphanumeric, halpha, hupper, hlower, hdigit, Bool.or_eq_true, Bool.and_eq_true, decide_eq_true_eq]

theorem inNameClass_eq (c : Char) : inNameClass c = isNameChar c := by
  rw [Bool.eq_iff_iff]
  simp only [inNameClass, isNameChar, Bool.or_eq_true, isAsciiAlphanumeric_iff, Bool.and_eq_true, decide_eq_true_eq]
  tauto

/-- what the class takes is what a name is made of -/
theorem isNameText_iff_inNameClass {name : List Char} :
    isNameText name = true ↔ name ≠ [] ∧ ∀ c ∈ name, inNameClass c = true := by
  simp only [isNameText_iff, inNameClass_eq]

theorem firstStart?_eq_some_iff {line name rest : List Char} :
    firstStart? line = some (name, rest) ↔ Captures line name rest := by
  simp only [Captures, ← isNameText_iff_inNameClass, firstStart?_eq, Option.map_eq_some_iff]
  constructor
  · rintro ⟨⟨before, found, behind⟩, hcut, he⟩
    cases he
    obtain ⟨hname, hline, hleft⟩ := cutStart?_eq_some_iff.1 hcut
    exact ⟨hname, before, hline, hleft⟩
  · rintro ⟨hname, before, hline, hleft⟩
    exact ⟨(before, name, rest), cutStart?_eq_some_iff.2 ⟨hname, hline, hleft⟩, rfl⟩

theorem isNameText_of_firstStart? {line name rest : List Char} (h : firstStart? line = some (name, rest)) :
    isNameText name = true :=
  isNameText_iff_inNameClass.2 (firstStart?_eq_some_iff.1 h).1

end Marker

namespace Markup

/-! ## What closes a block, and what refuses one -/

/-- a block of the name is added: the name is free, or it will be overwritten -/
def Admits (policy : Policy) (lib : Library) (name : List Char) : Prop :=
  policy = .overwrite ∨ String.ofList name ∉ lib.names

/-- the line closes the block of `name` that starts on line `start`, and the template with this body is added -/
inductive Closes (policy : Policy) (lib : Library) (number : Nat) (line : List Char) :
    Scan → List Char → Nat → List Char → Prop
  /-- both markers are on the line -/
  | onOneLine {name rest body after : List Char} (hstart : Marker.firstStart? line = some (name, rest))
    (hadmitted : Admits policy lib name)
    (hstop : Text.cut? (Marker.stop name) rest = some (body, after)) :
    Closes policy lib number line .searching name number body
  /-- the start marker is on an earlier line -/
  | below {name before after : List Char} {start : Nat} {earlier : List (List Char)}
    (hstop : Text.cut? (Marker.stop name) line = some (before, after)) :
    Closes policy lib number line (.collecting name start earlier) name start
      (['\n'].intercalate (before :: earlier).reverse)

/-- the line has the start marker of a block that is refused -/
def Refuses (policy : Policy) (lib : Library) (line name : List Char) : Prop :=
  policy = .error ∧ (∃ rest, Marker.firstStart? line = some (name, rest)) ∧ String.ofList name ∈ lib.names

/-- the block is admitted and added, and its name leads to it then -/
def Adds (policy : Policy) (lib : Library) (name : List Char) (start : Nat) (body : List Char) (next : Library) :
    Prop :=
  Admits policy lib name ∧
    ∃ t, Template.make (String.ofList name) (String.ofList body) = .ok t ∧ lib.add t policy = .ok next ∧
      close policy lib name start body = .ok next ∧ next.find? (String.ofList name) = some t

/-- the name of a block that is collected can be the name of a template, and its block is still admitted -/
def Scan.Ready (policy : Policy) (lib : Library) : Scan → Prop
  | .collecting name _ _ => isNameText name = true ∧ Admits policy lib name
  | _ => True

section

variable {policy : Policy} {number start : Nat} {line name rest body : List Char} {lines : List (List Char)}
  {scan scan' : Scan} {lib lib' : Library}

theorem Scan.ready_searching (policy : Policy) (lib : Library) : Scan.searching.Ready policy lib := trivial

/-- a block that is admitted is not treated as one of a taken name -/
theorem Admits.not_taken (hadmitted : Admits policy lib name) {p : Policy}
    (hp : p ≠ .overwrite) : ¬ (policy = p ∧ String.ofList name ∈ lib.names) := by
  rintro ⟨rfl, htaken⟩
  exact hadmitted.elim hp fun hfree => hfree htaken

/-! ## One line -/

/-- an admitted block is added -/
theorem adds_of_admitted (hname : isNameText name = true)
    (hadmitted : Admits policy lib name) (start : Nat) (body : List Char) :
    ∃ next, Adds policy lib name start body next := by
  have hvalid : isTemplateName (String.ofList name) = true := by rwa [isTemplateName, String.toList_ofList]
  have hmake : Template.make (String.ofList name) (String.ofList body) =
      .ok (Block.template ⟨name, body, start, hname⟩) := dif_pos hvalid
  obtain ⟨next, hadd⟩ :=
    Library.add_ok_of_not_refused (t := Block.template ⟨name, body, start, hname⟩) (hadmitted.not_taken (by decide))
  have hclose : close policy lib name start body =
      (lib.add (Block.template ⟨name, body, start, hname⟩) policy).mapError (withLine start) :=
    close_eq ⟨name, body, start, hname⟩
  rw [hadd] at hclose
  refine ⟨next, hadmitted, _, hmake, hadd, hclose, ?_⟩
  rw [Library.find?_add hadd, if_pos ⟨rfl, hadmitted.not_taken (by decide)⟩]

/-- a line that closes a block in a state that is ready adds it -/
theorem adds_of_closes (hready : scan.Ready policy lib) (h : Closes policy lib number line scan name start body) :
    ∃ next, Adds policy lib name start body next := by
  cases h with
  | onOneLine hstart hadmitted hstop => exact adds_of_admitted (Marker.isNameText_of_firstStart? hstart) hadmitted _ _
  | below hstop => exact adds_of_admitted hready.1 hready.2 _ _

section

variable (hstart : Marker.firstStart? line = some (name, rest))
  (hadmitted : Admits policy lib name)

include hstart hadmitted

/-- an admitted block with both markers on the line -/
theorem step_of_stop {after : List Char} (hstop : Text.cut? (Marker.stop name) rest = some (body, after)) :
    step policy lib .searching number line = (close policy lib name number body).map fun lib => (lib, .searching) := by
  simp only [step, openLine, hstart, taken_and_iff, hstop]
  rw [if_neg (hadmitted.not_taken (p := .error) (by decide)), if_neg (hadmitted.not_taken (p := .ignore) (by decide))]

/-- an admitted block that goes on below the line -/
theorem step_of_no_stop (hstop : Text.cut? (Marker.stop name) rest = none) :
    step policy lib .searching number line =
      .ok (lib, .collecting name number (if (Text.trim rest).isEmpty then [] else [rest])) := by
  simp only [step, openLine, hstart, taken_and_iff, hstop]
  rw [if_neg (hadmitted.not_taken (p := .error) (by decide)), if_neg (hadmitted.not_taken (p := .ignore) (by decide))]

end

/-- a block that is ignored is passed over -/
theorem step_of_ignored (hstart : Marker.firstStart? line = some (name, rest))
    (htaken : String.ofList name ∈ lib.names) :
    step .ignore lib .searching number line =
      .ok (lib, if (Text.cut? (Marker.stop name) rest).isSome then .searching else .skipping name number) := by
  simp only [step, openLine, hstart, taken_and_iff, reduceCtorEq, false_and, true_and, if_false]
  exact if_pos htaken

theorem step_of_closes (h : Closes policy lib number line scan name start body) :
    step policy lib scan number line = (close policy lib name start body).map fun lib => (lib, .searching) := by
  cases h with
  | onOneLine hstart hadmitted hstop => exact step_of_stop hstart hadmitted hstop
  | below hstop => simp only [step, hstop]

/-- behind a block that is closed and added the search goes on -/
theorem step_of_adds {next : Library} (h : Closes policy lib number line scan name start body)
    (hadds : Adds policy lib name start body next) : step policy lib scan number line = .ok (next, .searching) := by
  obtain ⟨-, t, -, -, hclose, -⟩ := hadds
  rw [step_of_closes h, hclose]
  rfl

theorem step_of_refuses (h : Refuses policy lib line name) :
    step policy lib .searching number line = .error (.duplicateTemplate (String.ofList name) (some number)) := by
  obtain ⟨hpolicy, ⟨rest, hstart⟩, htaken⟩ := h
  simp only [step, openLine, hstart, taken_and_iff]
  rw [if_pos ⟨hpolicy, htaken⟩]

/-- a line closes a block, or it refuses one, or it leaves the library as it is and the state ready -/
theorem step_cases (hready : scan.Ready policy lib) (number : Nat) (line : List Char) :
    (∃ name start body, Closes policy lib number line scan name start body) ∨
      (∃ name, scan = .searching ∧ Refuses policy lib line name) ∨
      ∃ scan', step policy lib scan number line = .ok (lib, scan') ∧ scan'.Ready policy lib := by
  cases scan with
  | searching =>
    rcases hstart : Marker.firstStart? line with _ | ⟨name, rest⟩
    · refine .inr (.inr ⟨.searching, ?_, trivial⟩)
      simp only [step, openLine, hstart]
    by_cases hadmitted : Admits policy lib name
    · rcases hstop : Text.cut? (Marker.stop name) rest with _ | ⟨body, after⟩
      · have hname := Marker.isNameText_of_firstStart? hstart
        exact .inr (.inr ⟨_, step_of_no_stop hstart hadmitted hstop, hname, hadmitted⟩)
      · exact .inl ⟨name, number, body, .onOneLine hstart hadmitted hstop⟩
    · obtain ⟨hpolicy, htaken⟩ := not_or.1 hadmitted
      rw [not_not] at htaken
      cases policy with
      | error => exact .inr (.inl ⟨name, rfl, rfl, ⟨rest, hstart⟩, htaken⟩)
      | overwrite => exact absurd rfl hpolicy
      | ignore =>
        refine .inr (.inr ⟨_, step_of_ignored hstart htaken, ?_⟩)
        split <;> trivial
  | collecting name start earlier =>
    rcases hstop : Text.cut? (Marker.stop name) line with _ | ⟨before, after⟩
    · refine .inr (.inr ⟨.collecting name start (line :: earlier), ?_, hready⟩)
      simp only [step, hstop]
    · exact .inl ⟨name, start, _, .below hstop⟩
  | skipping name start =>
    refine .inr (.inr ⟨_, rfl, ?_⟩)
    split <;> trivial

/-- a line in a state that is ready is scanned, or it refuses a block -/
theorem ready_step (hready : scan.Ready policy lib) (number : Nat) (line : List Char) :
    (∃ lib' scan', step policy lib scan number line = .ok (lib', scan') ∧ scan'.Ready policy lib') ∨
      ∃ name, scan = .searching ∧ Refuses policy lib line name := by
  rcases step_cases hready number line with ⟨name, start, body, hcloses⟩ | hrefuses | ⟨scan', hstep, hready'⟩
  · obtain ⟨next, hadds⟩ := adds_of_closes hready hcloses
    exact .inl ⟨next, .searching, step_of_adds hcloses hadds, trivial⟩
  · exact .inr hrefuses
  · exact .inl ⟨lib, scan', hstep, hready'⟩

/-! ## Many lines -/

/-- the library and the state behind lines, if none is an error -/
def stateBehind (policy : Policy) : Nat → List (List Char) → Scan → Library → Except Error (Library × Scan)
  | _, [], scan, lib => .ok (lib, scan)
  | number, line :: rest, scan, lib =>
    match step policy lib scan number line with
    | .ok (lib, scan) => stateBehind policy (number + 1) rest scan lib
    | .error e => .error e

theorem stateBehind_of_step_ok (hstep : step policy lib scan number line = .ok (lib', scan'))
    (lines : List (List Char)) :
    stateBehind policy number (line :: lines) scan lib = stateBehind policy (number + 1) lines scan' lib' := by
  rw [stateBehind, hstep]

/-- a scan goes through the states behind its lines -/
theorem scanLines_of_stateBehind {earlier : List (List Char)}
    (h : stateBehind policy number earlier scan lib = .ok (lib', scan')) (later : List (List Char)) :
    scanLines policy number (earlier ++ later) scan lib =
      scanLines policy (number + earlier.length) later scan' lib' := by
  induction earlier generalizing number scan lib with
  | nil =>
    cases h
    rfl
  | cons line rest ih =>
    rcases hstep : step policy lib scan number line with e | ⟨next, between⟩
    · rw [stateBehind, hstep] at h
      cases h
    · rw [stateBehind_of_step_ok hstep] at h
      rw [List.cons_append, scanLines_of_step_ok hstep, ih h, List.length_cons]
      congr 1
      omega

theorem ready_stateBehind (hready : scan.Ready policy lib)
    (h : stateBehind policy number lines scan lib = .ok (lib', scan')) : scan'.Ready policy lib' := by
  induction lines generalizing number scan lib with
  | nil =>
    cases h
    exact hready
  | cons line rest ih =>
    rcases ready_step hready number line with ⟨next, between, hstep, hnext⟩ | ⟨name, rfl, hrefuses⟩
    · rw [stateBehind_of_step_ok hstep] at h
      exact ih hnext h
    · rw [stateBehind, step_of_refuses hrefuses] at h
      cases h

/-- a scan fails where a block is refused, or where the text ends in one -/
theorem error_cases {e : Error} (hready : scan.Ready policy lib)
    (h : scanLines policy number lines scan lib = (lib', .error e)) :
    (∃ name start, e = .unterminatedTemplate name start) ∨
      ∃ earlier line later name, lines = earlier ++ line :: later ∧
        stateBehind policy number earlier scan lib = .ok (lib', .searching) ∧ Refuses policy lib' line name ∧
        e = .duplicateTemplate (String.ofList name) (some (number + earlier.length)) := by
  induction lines generalizing number scan lib with
  | nil =>
    cases scan with
    | searching => cases h
    | collecting name start body =>
      cases h
      exact .inl ⟨_, _, rfl⟩
    | skipping name start =>
      cases h
      exact .inl ⟨_, _, rfl⟩
  | cons line rest ih =>
    rcases ready_step hready number line with ⟨next, between, hstep, hnext⟩ | ⟨name, rfl, hrefuses⟩
    · rw [scanLines_of_step_ok hstep] at h
      refine (ih hnext h).imp_right ?_
      rintro ⟨earlier, line', later, name, rfl, hbehind, hrefuses, rfl⟩
      refine ⟨line :: earlier, line', later, name, rfl, ?_, hrefuses, ?_⟩
      · rw [stateBehind_of_step_ok hstep, hbehind]
      · rw [List.length_cons, Nat.add_comm earlier.length, ← Nat.add_assoc]
    · rw [scanLines_of_step_error (step_of_refuses hrefuses)] at h
      cases h
      exact .inr ⟨[], line, rest, name, rfl, rfl, hrefuses, rfl⟩

end

end Markup

namespace Library

open Markup in
/-- **Nothing but a start marker refuses a block.** At every line that a parse gets to, a block that the line closes is
added and its name leads to it; every name that a start marker captures can be the name of a template; and so a parse
never fails for an invalid name, and for a duplicate only at the line of its start marker. -/
theorem parse_closes (lib : Library) (input : String) (policy : Policy) :
    (∀ earlier line later now scan, Text.lines input = earlier ++ line :: later →
      stateBehind policy 1 earlier .searching lib = .ok (now, scan) →
        lib.parse input policy = scanLines policy (1 + earlier.length) (line :: later) scan now ∧
        (∀ name start body, Closes policy now (1 + earlier.length) line scan name start body →
          ∃ next, Adds policy now name start body next ∧
            step policy now scan (1 + earlier.length) line = .ok (next, .searching)) ∧
        ((∀ name start body, ¬ Closes policy now (1 + earlier.length) line scan name start body) →
          (∃ scan', step policy now scan (1 + earlier.length) line = .ok (now, scan')) ∨
            ∃ name, scan = .searching ∧ Refuses policy now line name)) ∧
    (∀ line name rest, (Marker.firstStart? line = some (name, rest) ↔ Marker.Captures line name rest) ∧
      (Marker.Captures line name rest → isTemplateName (String.ofList name) = true)) ∧
    (∀ name, (lib.parse input policy).2 ≠ .error (.invalidTemplateName name)) ∧
    ∀ name n, (lib.parse input policy).2 = .error (.duplicateTemplate name n) →
      ∃ earlier line later word, Text.lines input = earlier ++ line :: later ∧
        stateBehind policy 1 earlier .searching lib = .ok ((lib.parse input policy).1, .searching) ∧
        Refuses policy (lib.parse input policy).1 line word ∧ name = String.ofList word ∧
        n = some (1 + earlier.length) := by
  have hscan : ∀ {e}, (lib.parse input policy).2 = .error e →
      scanLines policy 1 (Text.lines input) .searching lib = ((lib.parse input policy).1, .error e) :=
    fun he => Prod.ext rfl he
  refine ⟨?_, ?_, ?_, ?_⟩
  · intro earlier line later now scan hlines hbehind
    have hready : scan.Ready policy now := ready_stateBehind (Scan.ready_searching policy lib) hbehind
    refine ⟨?_, ?_, ?_⟩
    · calc lib.parse input policy = scanLines policy 1 (Text.lines input) .searching lib := rfl
        _ = scanLines policy 1 (earlier ++ line :: later) .searching lib := by rw [hlines]
        _ = scanLines policy (1 + earlier.length) (line :: later) scan now :=
          scanLines_of_stateBehind hbehind (line :: later)
    · intro name start body hcloses
      obtain ⟨next, hadds⟩ := adds_of_closes hready hcloses
      exact ⟨next, hadds, step_of_adds hcloses hadds⟩
    · intro hopen
      rcases step_cases hready (1 + earlier.length) line with
        ⟨name, start, body, hcloses⟩ | hrefuses | ⟨scan', hstep, -⟩
      · exact absurd hcloses (hopen name start body)
      · exact .inr hrefuses
      · exact .inl ⟨scan', hstep⟩
  · intro line name rest
    refine ⟨Marker.firstStart?_eq_some_iff, fun hcaptures => ?_⟩
    rw [isTemplateName, String.toList_ofList]
    exact Marker.isNameText_iff_inNameClass.2 hcaptures.1
  · intro name he
    rcases error_cases (Scan.ready_searching policy lib) (hscan he) with
      ⟨_, _, hother⟩ | ⟨_, _, _, _, -, -, -, hother⟩
    · cases hother
    · cases hother
  · intro name n he
    rcases error_cases (Scan.ready_searching policy lib) (hscan he) with
      ⟨_, _, hother⟩ | ⟨earlier, line, later, word, hlines, hbehind, hrefuses, heq⟩
    · cases hother
    · cases heq
      exact ⟨earlier, line, later, word, hlines, hbehind, hrefuses, rfl, rfl⟩

open Markup in
/-- the second line closes the block of the first -/
theorem parse_closes_below :
    let first := "<%%STARTTEMPLATE a%%>".toList
    let second := "x<%%ENDTEMPLATE a%%>".toList
    stateBehind .ignore 1 [first] .searching empty = .ok (empty, .collecting ['a'] 1 []) ∧
      ∃ next, Adds .ignore empty ['a'] 1 ['x'] next ∧
        step .ignore empty (.collecting ['a'] 1 []) 2 second = .ok (next, .searching) := by
  intro first second
  have hlines : Text.lines "<%%STARTTEMPLATE a%%>\nx<%%ENDTEMPLATE a%%>" = [first] ++ second :: [] := by decide +kernel
  have hbehind : stateBehind .ignore 1 [first] .searching empty = .ok (empty, .collecting ['a'] 1 []) := by rfl
  have hstop : Text.cut? (Marker.stop ['a']) second = some (['x'], []) := by decide +kernel
  have hcloses : Closes .ignore empty 2 second (.collecting ['a'] 1 []) ['a'] 1 ['x'] := Closes.below hstop
  obtain ⟨-, hclosed, -⟩ := (parse_closes empty _ .ignore).1 [first] second [] empty _ hlines hbehind
  exact ⟨hbehind, hclosed ['a'] 1 ['x'] hcloses⟩

end Library

end BlockTemplates
