/-
Which files are loaded, and in which order.

Paths are ordered name by name (`Path.le_iff`), and patterns only count through the paths that one of them matches
(`Sources.isSelection_select`), so that what is selected has one order (`Sources.IsSelection.unique`). What is loaded
does not depend on the order in which a walk comes upon the files, nor on how the patterns are listed:
`Config.sources_unordered`.
-/
import BlockTemplates.Project.Sources
import BlockTemplates.Proofs.Project.Enumeration
import Mathlib.Data.String.Basic

namespace BlockTemplates

/-! ## The order of paths -/

namespace Path

/-- paths are compared at the first name in which they differ -/
theorem le_iff {a b : Path} : a.le b = true ↔ ¬ b < a := by
  induction a generalizing b with
  | nil => simp [le]
  | cons x xs ih =>
    cases b with
    | nil => simp [le]
    | cons y ys =>
      rw [le, Bool.or_eq_true, Bool.and_eq_true, decide_eq_true_eq, beq_iff_eq, ih, List.cons_lt_cons_iff]
      rcases lt_trichotomy x y with hlt | rfl | hgt
      · simp [hlt, hlt.not_gt, hlt.ne']
      · simp
      · simp [hgt, hgt.not_gt, hgt.ne']

theorem le_or_le (a b : Path) : (a.le b || b.le a) = true := by
  rw [Bool.or_eq_true, le_iff, le_iff, not_lt, not_lt]
  exact le_total a b

theorem le_of_le_of_le (a b c : Path) (hab : a.le b = true) (hbc : b.le c = true) : a.le c = true := by
  rw [le_iff, not_lt] at *
  exact hab.trans hbc

theorem lt_of_le_of_ne {a b : Path} (hab : a.le b = true) (hne : a ≠ b) : a < b := by
  rw [le_iff, not_lt] at hab
  exact hab.lt_of_ne hne

end Path

/-! ## The files that patterns select -/

namespace Sources

variable {patterns patterns' : List String} {globs : List Glob} {found found' files files' : List FoundFile}

def Matches (patterns : List String) (path : Path) : Prop :=
  ∃ pattern ∈ patterns, ∃ glob, Glob.ofString pattern = .ok glob ∧ glob.isMatch path.bytes = true

def Readable (patterns : List String) : Prop :=
  ∀ pattern ∈ patterns, ∃ glob, Glob.ofString pattern = .ok glob

instance (pattern : String) (p : Glob → Prop) [DecidablePred p] :
    Decidable (∃ glob, Glob.ofString pattern = .ok glob ∧ p glob) :=
  match h : Glob.ofString pattern with
  | .ok glob => decidable_of_iff (p glob) (by simp)
  | .error _ => isFalse (by simp)

instance (path : Path) : Decidable (Matches patterns path) :=
  inferInstanceAs (Decidable (∃ pattern ∈ patterns, ∃ glob, Glob.ofString pattern = .ok glob ∧ _))

instance : Decidable (Readable patterns) :=
  decidable_of_iff (∀ pattern ∈ patterns, ∃ glob, Glob.ofString pattern = .ok glob ∧ True) (by simp [Readable])

theorem exists_readPatterns (h : Readable patterns) : ∃ globs, readPatterns patterns = .ok globs := by
  induction patterns with
  | nil => exact ⟨[], rfl⟩
  | cons pattern rest ih =>
    obtain ⟨glob, hglob⟩ := h pattern List.mem_cons_self
    obtain ⟨globs, hglobs⟩ := ih fun other hother => h other (List.mem_cons_of_mem pattern hother)
    refine ⟨glob :: globs, ?_⟩
    simp only [readPatterns, hglob, hglobs, Except.map]

/-- patterns that are read match what one of them matches -/
theorem any_isMatch_iff (h : readPatterns patterns = .ok globs) (path : Path) :
    (globs.any fun glob => glob.isMatch path.bytes) = true ↔ Matches patterns path := by
  induction patterns generalizing globs with
  | nil =>
    cases h
    simp [Matches]
  | cons pattern rest ih =>
    rw [readPatterns] at h
    rcases hglob : Glob.ofString pattern with fault | glob
    · simp only [hglob] at h
      cases h
    rcases hrest : readPatterns rest with e | others
    · simp only [hglob, hrest] at h
      cases h
    simp only [hglob, hrest] at h
    cases h
    rw [List.any_cons, Bool.or_eq_true, ih hrest]
    simp only [Matches, List.exists_mem_cons_iff, hglob, Except.ok.injEq, exists_eq_left']

/-- the files at the paths that are matched, each before all that follow it -/
structure IsSelection (patterns : List String) (found files : List FoundFile) : Prop where
  mem_iff : ∀ file, file ∈ files ↔ file ∈ found ∧ Matches patterns file.path
  ascending : files.Pairwise fun a b => a.path < b.path

theorem IsSelection.nodup (h : IsSelection patterns found files) : files.Nodup :=
  h.ascending.imp fun hlt heq => (heq ▸ hlt).false

/-- files have one order, and how patterns and files are listed does not matter -/
theorem IsSelection.unique (h : IsSelection patterns found files) (h' : IsSelection patterns' found' files')
    (hpatterns : ∀ pattern, pattern ∈ patterns' ↔ pattern ∈ patterns) (hfound : ∀ file, file ∈ found' ↔ file ∈ found) :
    files' = files := by
  have hsame : ∀ file, file ∈ files' ↔ file ∈ files := by
    intro file
    simp only [h.mem_iff, h'.mem_iff, hfound, Matches, hpatterns]
  have hperm : files'.Perm files := (List.perm_ext_iff_of_nodup h'.nodup h.nodup).2 hsame
  refine hperm.eq_of_pairwise ?_ h'.ascending h.ascending
  intro a b _ _ hab hba
  exact absurd (hab.trans hba) (lt_irrefl a.path)

theorem select_perm_filter (globs : List Glob) (found : List FoundFile) :
    (select globs found).Perm (found.filter fun file => globs.any fun glob => glob.isMatch file.path.bytes) :=
  List.mergeSort_perm _ _

/-- the files of different paths that patterns match are selected -/
theorem isSelection_select (h : readPatterns patterns = .ok globs) (hdistinct : (found.map FoundFile.path).Nodup) :
    IsSelection patterns found (select globs found) where
  mem_iff file := by rw [(select_perm_filter globs found).mem_iff, List.mem_filter, any_isMatch_iff h]
  ascending := by
    have hsorted : (select globs found).Pairwise fun a b => a.path.le b.path = true :=
      List.pairwise_mergeSort (fun a b c => Path.le_of_le_of_le a.path b.path c.path)
        (fun a b => Path.le_or_le a.path b.path) _
    have hpaths : ((select globs found).map FoundFile.path).Nodup :=
      ((select_perm_filter globs found).map FoundFile.path).nodup_iff.2
        (hdistinct.sublist (List.filter_sublist.map _))
    exact hsorted.imp₂ (fun a b hle hne => Path.lt_of_le_of_ne hle hne) (List.pairwise_map.1 hpaths)

end Sources

/-! ## What is loaded -/

namespace Config

variable {config : Config} {patterns : List String}

/-- the source files, if a walk comes upon these files in this order, or does not start -/
def sourcesAmong (config : Config) (walked : Option (List FoundFile)) : Except Error (List FoundFile) := do
  let globs ← Sources.readPatterns config.sources
  match walked with
  | some files => pure (Sources.select globs files)
  | none => .error (.file .notListed)

def engineAmong (config : Config) (walked : Option (List FoundFile)) : Except Error Engine := do
  let files ← config.sourcesAmong walked
  (Sources.addFiles config.duplicates files Library.empty).map Engine.ofLibrary

theorem sourceFiles_eq (config : Config) (top : Tree) (root : Option Root) :
    config.sourceFiles top root = config.sourcesAmong (root.bind (Walk.files? top)) := rfl

theorem buildEngine_eq (config : Config) (top : Tree) (root : Option Root) :
    config.buildEngine top root = config.engineAmong (root.bind (Walk.files? top)) := rfl

/-- an engine is built from the source files and the policy -/
theorem engineAmong_congr {walked walked' : Option (List FoundFile)}
    (h : { config with sources := patterns }.sourcesAmong walked' = config.sourcesAmong walked) :
    { config with sources := patterns }.engineAmong walked' = config.engineAmong walked := by
  rw [engineAmong, h, engineAmong]

section

variable (hreadable : Sources.Readable config.sources) {found found' : List FoundFile}

include hreadable

theorem exists_sourcesAmong (hdistinct : (found.map FoundFile.path).Nodup) :
    ∃ files, config.sourcesAmong (some found) = .ok files ∧ Sources.IsSelection config.sources found files := by
  obtain ⟨globs, hglobs⟩ := Sources.exists_readPatterns hreadable
  refine ⟨Sources.select globs found, ?_, Sources.isSelection_select hglobs hdistinct⟩
  simp only [sourcesAmong, hglobs]
  rfl

variable (hpatterns : ∀ pattern, pattern ∈ patterns ↔ pattern ∈ config.sources)

include hpatterns

/-- the same files are selected in whatever order a walk comes upon them -/
theorem sourcesAmong_perm (hdistinct : (found.map FoundFile.path).Nodup) (hperm : found'.Perm found) :
    { config with sources := patterns }.sourcesAmong (some found') = config.sourcesAmong (some found) := by
  have hreadable' : Sources.Readable patterns := fun pattern hmem => hreadable pattern ((hpatterns pattern).1 hmem)
  have hdistinct' : (found'.map FoundFile.path).Nodup := (hperm.map FoundFile.path).nodup_iff.2 hdistinct
  obtain ⟨files, hfiles, hselection⟩ := exists_sourcesAmong hreadable hdistinct
  have hselected : ∃ files, { config with sources := patterns }.sourcesAmong (some found') = .ok files ∧
      Sources.IsSelection patterns found' files := exists_sourcesAmong hreadable' hdistinct'
  obtain ⟨files', hfiles', hselection'⟩ := hselected
  rw [hfiles, hfiles', hselection.unique hselection' hpatterns fun file => hperm.mem_iff]

theorem sourcesAmong_none :
    { config with sources := patterns }.sourcesAmong none = config.sourcesAmong none := by
  obtain ⟨globs, hglobs⟩ := Sources.exists_readPatterns hreadable
  obtain ⟨globs', hglobs'⟩ :=
    Sources.exists_readPatterns fun pattern hmem => hreadable pattern ((hpatterns pattern).1 hmem)
  simp only [sourcesAmong, hglobs, hglobs']
  rfl

end

/-- **Loading depends neither on the order of a walk nor on how patterns are listed.** Patterns that can be read are
listed in some other order, and some of them more than once. Files of different paths are come upon in any order. Then
the source files are the same: the files that a pattern matches, in ascending order of their paths name by name, so each
once; and what is built of them is the same, be it an engine or an error. It is so for the files of trees that differ in
the order in which directories list their entries. -/
theorem sources_unordered {config : Config} {patterns : List String} (hreadable : Sources.Readable config.sources)
    (hpatterns : ∀ pattern, pattern ∈ patterns ↔ pattern ∈ config.sources) :
    (∀ found found' : List FoundFile, (found.map FoundFile.path).Nodup → found'.Perm found →
      (∃ files, config.sourcesAmong (some found) = .ok files ∧
        { config with sources := patterns }.sourcesAmong (some found') = .ok files ∧
        Sources.IsSelection config.sources found files) ∧
      { config with sources := patterns }.engineAmong (some found') = config.engineAmong (some found)) ∧
    ∀ (top top' : Tree) (root : Option Root), top.NamesOnce → top.Reordered top' →
      { config with sources := patterns }.sourceFiles top' root = config.sourceFiles top root ∧
        { config with sources := patterns }.buildEngine top' root = config.buildEngine top root ∧
        ∀ found, root.bind (Walk.files? top) = some found →
          ∃ files, config.sourceFiles top root = .ok files ∧ Sources.IsSelection config.sources found files := by
  refine ⟨?_, ?_⟩
  · intro found found' hdistinct hperm
    have hsame := sourcesAmong_perm hreadable hpatterns hdistinct hperm
    obtain ⟨files, hfiles, hselection⟩ := exists_sourcesAmong hreadable hdistinct
    exact ⟨⟨files, hfiles, hsame.trans hfiles, hselection⟩, engineAmong_congr hsame⟩
  · intro top top' root hnames hreordered
    have hdistinct : ∀ found, root.bind (Walk.files? top) = some found → (found.map FoundFile.path).Nodup := by
      intro found hfound
      obtain ⟨here, -, hfiles⟩ := Option.bind_eq_some_iff.1 hfound
      exact Walk.nodup_paths here hnames hfiles
    have hsame : { config with sources := patterns }.sourcesAmong (root.bind (Walk.files? top')) =
        config.sourcesAmong (root.bind (Walk.files? top)) := by
      cases root with
      | none => exact sourcesAmong_none hreadable hpatterns
      | some here =>
        rw [Option.bind_some, Option.bind_some]
        rcases Walk.files?_reordered here hreordered with ⟨hnone, hnone'⟩ | ⟨found, found', hfound, hfound', hperm⟩
        · rw [hnone, hnone']
          exact sourcesAmong_none hreadable hpatterns
        · rw [hfound, hfound']
          exact sourcesAmong_perm hreadable hpatterns (hdistinct found hfound) hperm
    rw [buildEngine_eq, buildEngine_eq, sourceFiles_eq, sourceFiles_eq]
    refine ⟨hsame, engineAmong_congr hsame, ?_⟩
    intro found hfound
    rw [hfound]
    exact exists_sourcesAmong hreadable (hdistinct found hfound)

/-- two patterns that match some files both -/
def overlapping : Config :=
  { Config.default with sources := ["**/*.tpl", "a/*"] }

def pageText : ByteArray :=
  "<%%STARTTEMPLATE page%%>x<%%ENDTEMPLATE page%%>".toUTF8

/-- two files of a directory `a`, one beside it, and one that is not matched; as text `a-b.tpl` is before `a/b.tpl` -/
def pages : List FoundFile :=
  [⟨["a-b.tpl"], pageText⟩, ⟨["a", "c"], pageText⟩, ⟨["notes.txt"], pageText⟩, ⟨["a", "b.tpl"], pageText⟩]

/-- the source files among them -/
def sortedPages : List FoundFile :=
  [⟨["a", "b.tpl"], pageText⟩, ⟨["a", "c"], pageText⟩, ⟨["a-b.tpl"], pageText⟩]

theorem isSelection_sortedPages : Sources.IsSelection overlapping.sources pages sortedPages where
  mem_iff file := by
    have hmatches : (pages.map fun page => decide (Sources.Matches overlapping.sources page.path)) =
        [true, true, false, true] := by decide +kernel
    simp only [pages, List.map_cons, List.map_nil, List.cons.injEq, and_true, decide_eq_true_eq,
      decide_eq_false_iff_not] at hmatches
    obtain ⟨hbeside, hother, hnotes, hinside⟩ := hmatches
    simp only [sortedPages, pages, List.mem_cons, List.not_mem_nil, or_false]
    constructor
    · rintro (rfl | rfl | rfl) <;> simp [hbeside, hother, hinside]
    · rintro ⟨rfl | rfl | rfl | rfl, hmatch⟩
      · simp
      · simp
      · exact absurd hmatch hnotes
      · simp
  ascending := by
    simp only [sortedPages, List.pairwise_cons]
    decide

/-- the files as a tree, with the entries of both directories in descending order -/
def pagesTree : Tree :=
  .directory [("notes.txt", .file pageText), ("a-b.tpl", .file pageText),
    ("a", .directory [("c", .file pageText), ("b.tpl", .file pageText)])]

/-- the same tree, where `a` is listed in front of `a-b.tpl`, and its entries are in ascending order -/
def relistedTree : Tree :=
  .directory [("notes.txt", .file pageText), ("a", .directory [("b.tpl", .file pageText), ("c", .file pageText)]),
    ("a-b.tpl", .file pageText)]

theorem reordered_relistedTree : pagesTree.Reordered relistedTree := by
  refine .trans (.inside (.swap ?_ [] []) "a" [("notes.txt", .file pageText), ("a-b.tpl", .file pageText)] [])
    (.swap ?_ [("notes.txt", .file pageText)] [])
  · decide
  · decide

/-- patterns that match a file both, and files of one template -/
theorem sources_unordered_overlapping :
    let relisted := { overlapping with sources := ["a/*", "**/*.tpl", "a/*"] }
    let root := some (Root.ofPath [])
    Sources.Readable overlapping.sources ∧ (∀ pattern, pattern ∈ relisted.sources ↔ pattern ∈ overlapping.sources) ∧
      (pages.map FoundFile.path).Nodup ∧ pagesTree.NamesOnce ∧
      relisted.sourcesAmong (some pages.reverse) = .ok sortedPages ∧
      relisted.engineAmong (some pages.reverse) = overlapping.engineAmong (some pages) ∧
      relisted.buildEngine relistedTree root = overlapping.buildEngine pagesTree root := by
  intro relisted root
  have hreadable : Sources.Readable overlapping.sources := by decide +kernel
  have hpatterns : ∀ pattern, pattern ∈ relisted.sources ↔ pattern ∈ overlapping.sources := by
    intro pattern
    simp only [relisted, overlapping, List.mem_cons, List.not_mem_nil, or_false]
    constructor
    · rintro (h | h | h) <;> simp [h]
    · rintro (h | h) <;> simp [h]
  have hdistinct : (pages.map FoundFile.path).Nodup := by decide
  have hnames : pagesTree.NamesOnce := by
    simp [pagesTree, Tree.NamesOnce, Tree.EntriesNamesOnce]
  obtain ⟨hfound, htrees⟩ := sources_unordered hreadable hpatterns
  obtain ⟨⟨files, -, hfiles, hselection⟩, hengine⟩ := hfound pages pages.reverse hdistinct pages.reverse_perm
  have hsorted : files = sortedPages :=
    isSelection_sortedPages.unique hselection (fun _ => Iff.rfl) (fun _ => Iff.rfl)
  exact ⟨hreadable, hpatterns, hdistinct, hnames, hsorted ▸ hfiles, hengine,
    (htrees pagesTree relistedTree root hnames reordered_relistedTree).2.1⟩

end Config

end BlockTemplates
