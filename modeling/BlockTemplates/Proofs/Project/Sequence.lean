/-
Loading files one by one is parsing them in sequence.

Files are loaded by parsing each into a library of its own and merging the libraries. A parse that succeeds adds the
blocks of the text and nothing else (`parse_eq_ok_iff`), and blocks can be added by way of a library of their own
(`addAll_ok_iff_merge`); so one file is loaded exactly if it can be parsed into the library, and to the same effect
(`addText_eq_ok_iff`). `addFiles_in_sequence` is the run over all files.
-/
import BlockTemplates.Project.Sources
import BlockTemplates.Proofs.Markup.Stored

namespace BlockTemplates

namespace Sources

variable {policy : Policy} {lib lib' : Library}

theorem addText_eq_ok_iff_merge {text : String} :
    addText policy lib text = .ok lib' ↔
      ∃ own, Library.empty.parse text policy = (own, .ok ()) ∧ lib.merge own policy = (lib', .ok ()) := by
  rw [addText]
  rcases Library.empty.parse text policy with ⟨own, e | ⟨⟨⟩⟩⟩
  · simp [bind, Except.bind]
  · rcases hmerge : lib.merge own policy with ⟨merged, e | ⟨⟨⟩⟩⟩ <;>
      simp [bind, Except.bind, pure, Except.pure, hmerge]

/-- a text is added by way of a library of its own exactly if it can be parsed into the library -/
theorem addText_eq_ok_iff {text : String} :
    addText policy lib text = .ok lib' ↔ lib.parse text policy = (lib', .ok ()) := by
  rw [addText_eq_ok_iff_merge, Library.parse_eq_ok_iff, Library.addAll_ok_iff_merge]
  simp only [Library.parse_eq_ok_iff, and_assoc, exists_and_left]

/-! ## Files -/

def textFile (source : Path × String) : FoundFile :=
  ⟨source.1, source.2.toUTF8⟩

/-- parses texts one after another into a library, up to the first that fails -/
def parseAll (policy : Policy) : List String → Library → Library × Except Error Unit
  | [], lib => (lib, .ok ())
  | text :: rest, lib =>
    match lib.parse text policy with
    | (lib, .ok ()) => parseAll policy rest lib
    | (lib, .error e) => (lib, .error e)

theorem textOf_textFile (source : Path × String) : textOf (textFile source) = .ok source.2 := by
  have hdecoded : String.fromUTF8? source.2.toUTF8 = some source.2 := by
    simp only [String.fromUTF8?, String.toUTF8_eq_toByteArray, dif_pos source.2.isValidUTF8]
    rfl
  rw [textOf, textFile, hdecoded]

theorem addFiles_of_ok {source : Path × String} (h : addText policy lib source.2 = .ok lib')
    (rest : List FoundFile) : addFiles policy (textFile source :: rest) lib = addFiles policy rest lib' := by
  rw [addFiles, textOf_textFile]
  simp only [bind, Except.bind, h, Except.mapError]

theorem addFiles_of_error {source : Path × String} {e : Error} (h : addText policy lib source.2 = .error e)
    (rest : List FoundFile) :
    addFiles policy (textFile source :: rest) lib = .error (.sourceFile source.1.text e) := by
  rw [addFiles, textOf_textFile]
  simp only [bind, Except.bind, h, Except.mapError, textFile]

theorem addFiles_eq_ok_iff {sources : List (Path × String)} :
    addFiles policy (sources.map textFile) lib = .ok lib' ↔
      parseAll policy (sources.map Prod.snd) lib = (lib', .ok ()) := by
  induction sources generalizing lib with
  | nil => simp [addFiles, parseAll]
  | cons source rest ih =>
    rw [List.map_cons, List.map_cons, parseAll]
    rcases htext : addText policy lib source.2 with e | next
    · rcases hparse : lib.parse source.2 policy with ⟨parsed, e' | ⟨⟨⟩⟩⟩
      · rw [addFiles_of_error htext]
        simp
      · rw [addText_eq_ok_iff.2 hparse] at htext
        cases htext
    · rw [addFiles_of_ok htext, addText_eq_ok_iff.1 htext]
      exact ih

/-- **Loading file by file is loading in sequence.** Files are loaded, each parsed into a library of its own that is
merged then, exactly if their texts can be parsed one after another into one library, and to the same effect: the names
are the same in the same order, with the same bodies. If they are not loaded, the error names the first file at which
the parses in sequence fail. -/
theorem addFiles_in_sequence (policy : Policy) (sources : List (Path × String)) (lib : Library) :
    (∀ lib', addFiles policy (sources.map textFile) lib = .ok lib' ↔
      parseAll policy (sources.map Prod.snd) lib = (lib', .ok ())) ∧
    ∀ error, addFiles policy (sources.map textFile) lib = .error error →
      ∃ before path text after next e, sources = before ++ (path, text) :: after ∧
        parseAll policy (before.map Prod.snd) lib = (next, .ok ()) ∧ (next.parse text policy).2 ≠ .ok () ∧
        error = .sourceFile path.text e := by
  refine ⟨fun lib' => addFiles_eq_ok_iff, fun error herror => ?_⟩
  induction sources generalizing lib with
  | nil => cases herror
  | cons source rest ih =>
    rcases htext : addText policy lib source.2 with e | next
    · rw [List.map_cons, addFiles_of_error htext] at herror
      cases herror
      refine ⟨[], source.1, source.2, rest, lib, e, rfl, rfl, fun hok => ?_, rfl⟩
      rw [addText_eq_ok_iff.2 (Prod.ext rfl hok)] at htext
      cases htext
    · rw [List.map_cons, addFiles_of_ok htext] at herror
      obtain ⟨before, path, text, after, last, e, rfl, hbefore, hfails, he⟩ := ih next herror
      refine ⟨source :: before, path, text, after, last, e, rfl, ?_, hfails, he⟩
      rw [List.map_cons, parseAll, addText_eq_ok_iff.1 htext]
      exact hbefore

end Sources

end BlockTemplates
