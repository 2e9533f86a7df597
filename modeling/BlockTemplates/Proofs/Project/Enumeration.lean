/-
The order in which directories list their entries.

Trees that differ in nothing but this order (`Tree.Reordered`) hold the same files under the same paths, and so the same
ignore files. A walk comes upon the same files then, in some other order (`Walk.files?_reordered`). If no directory has
two entries of one name, it comes upon each path once (`Walk.nodup_paths`).
-/
import BlockTemplates.Project.Walk
import Mathlib.Data.List.Basic

namespace BlockTemplates

/-- two trees that differ only in the order in which directories list their entries -/
inductive Tree.Reordered : Tree → Tree → Prop
  | refl (t : Tree) : Reordered t t
  | trans {a b c : Tree} (hab : Reordered a b) (hbc : Reordered b c) : Reordered a c
  /-- two entries are listed the other way round -/
  | swap {first second : String × Tree} (hne : first.1 ≠ second.1) (before after : List (String × Tree)) :
    Reordered (.directory (before ++ first :: second :: after)) (.directory (before ++ second :: first :: after))
  /-- a directory is reordered inside -/
  | inside {t t' : Tree} (h : Reordered t t') (name : String) (before after : List (String × Tree)) :
    Reordered (.directory (before ++ (name, t) :: after)) (.directory (before ++ (name, t') :: after))

namespace Entries

variable {α : Type}

theorem get?_append (key : String) (before after : Entries α) :
    get? key (before ++ after) = (get? key before).or (get? key after) := by
  induction before with
  | nil => rfl
  | cons first rest ih =>
    rw [List.cons_append, get?, get?, ih]
    split <;> rfl

end Entries

namespace Tree

theorem rel_refl (a : Option Tree) : Option.Rel Reordered a a := by
  cases a with
  | none => exact .none
  | some t => exact .some (.refl t)

theorem rel_trans {a b c : Option Tree} (hab : Option.Rel Reordered a b) (hbc : Option.Rel Reordered b c) :
    Option.Rel Reordered a c := by
  cases hab with
  | none => exact hbc
  | some hst =>
    cases hbc with
    | some htu => exact .some (hst.trans htu)

/-- both trees are missing, or both are there -/
theorem rel_cases {a b : Option Tree} (h : Option.Rel Reordered a b) :
    a = none ∧ b = none ∨ ∃ t t', a = some t ∧ b = some t' ∧ t.Reordered t' := by
  cases h with
  | none => exact .inl ⟨rfl, rfl⟩
  | some ht => exact .inr ⟨_, _, rfl, rfl, ht⟩

variable {t t' : Tree}

theorem Reordered.isFile_eq (h : Reordered t t') : t.isFile = t'.isFile := by
  induction h with
  | trans _ _ ihab ihbc => exact ihab.trans ihbc
  | _ => rfl

theorem Reordered.content?_eq (h : Reordered t t') : t.content? = t'.content? := by
  induction h with
  | trans _ _ ihab ihbc => exact ihab.trans ihbc
  | _ => rfl

theorem Reordered.child? (h : Reordered t t') (name : String) :
    Option.Rel Reordered (t.child? name) (t'.child? name) := by
  induction h with
  | refl t => exact rel_refl _
  | trans _ _ ihab ihbc => exact rel_trans ihab ihbc
  | @swap first second hne before after =>
    have hsame : (Tree.directory (before ++ first :: second :: after)).child? name =
        (Tree.directory (before ++ second :: first :: after)).child? name := by
      simp only [Tree.child?, Entries.get?_append, Entries.get?]
      by_cases hfirst : first.1 = name
      · have hsecond : second.1 ≠ name := fun he => hne (hfirst.trans he.symm)
        simp [hfirst, hsecond]
      · simp [hfirst]
    rw [hsame]
    exact rel_refl _
  | @inside t t' h inner before after _ =>
    simp only [Tree.child?, Entries.get?_append, Entries.get?]
    rcases Entries.get? name before with _ | found
    · by_cases hinner : inner = name
      · simp only [hinner, if_true, Option.none_or]
        exact .some h
      · simp only [if_neg hinner]
        exact rel_refl _
    · exact rel_refl _

theorem Reordered.find? (h : Reordered t t') (path : Path) :
    Option.Rel Reordered (t.find? path) (t'.find? path) := by
  induction path generalizing t t' with
  | nil => exact .some h
  | cons name path ih =>
    rw [Tree.find?, Tree.find?]
    rcases rel_cases (h.child? name) with ⟨hnone, hnone'⟩ | ⟨s, s', hsome, hsome', hs⟩
    · rw [hnone, hnone']
      exact rel_refl _
    · rw [hsome, hsome']
      exact ih hs

end Tree

namespace Walk

variable {t t' : Tree}

/-! ## Ignore files -/

theorem linesAt_reordered (h : t.Reordered t') (path : Path) : linesAt t path = linesAt t' path := by
  have hcontent : (t.find? path).bind Tree.content? = (t'.find? path).bind Tree.content? := by
    rcases Tree.rel_cases (h.find? path) with ⟨hnone, hnone'⟩ | ⟨s, s', hsome, hsome', hs⟩
    · rw [hnone, hnone']
    · rw [hsome, hsome', Option.bind_some, Option.bind_some, hs.content?_eq]
  rw [linesAt, linesAt, hcontent]

theorem isSome_child?_reordered (h : t.Reordered t') (name : String) :
    (t.child? name).isSome = (t'.child? name).isSome := by
  rcases Tree.rel_cases (h.child? name) with ⟨hnone, hnone'⟩ | ⟨s, s', hsome, hsome', -⟩
  · rw [hnone, hnone']
  · rw [hsome, hsome']
    rfl

theorem isReadableMark_reordered (h : t.Reordered t') (name : String) :
    isReadableMark (t.child? name) = isReadableMark (t'.child? name) := by
  rcases Tree.rel_cases (h.child? name) with ⟨hnone, hnone'⟩ | ⟨s, s', hsome, hsome', hs⟩
  · rw [hnone, hnone']
  · rw [hsome, hsome']
    have hcontent := hs.content?_eq
    cases s <;> cases s' <;> cases hcontent <;> rfl

/-- the rules of a directory are read from its files by their names -/
theorem levelOf_reordered (h : t.Reordered t') (root : Root) (depth : Nat) :
    levelOf root t depth = levelOf root t' depth := by
  simp only [levelOf, linesAt_reordered h, isSome_child?_reordered h, isReadableMark_reordered h]

theorem levelsAbove_reordered (h : t.Reordered t') (root : Root) (depth : Nat) (path : Path) (levels : List Level) :
    levelsAbove root t depth path levels = levelsAbove root t' depth path levels := by
  induction path generalizing t t' depth levels with
  | nil => rfl
  | cons name path ih =>
    simp only [levelsAbove, levelOf_reordered h]
    rcases Tree.rel_cases (h.child? name) with ⟨hnone, hnone'⟩ | ⟨s, s', hsome, hsome', hs⟩
    · rw [hnone, hnone']
    · rw [hsome, hsome']
      exact ih hs _ _

/-! ## The files of a walk -/

variable (root : Root)

theorem filesIn_append (levels : List Level) (path : Path) (before after : List (String × Tree)) :
    filesIn root levels path (before ++ after) = filesIn root levels path before ++ filesIn root levels path after := by
  induction before with
  | nil => rfl
  | cons first rest ih =>
    obtain ⟨name, entry⟩ := first
    simp only [List.cons_append, filesIn, ih, List.append_assoc]

/-- a walk comes upon the same files, in some order -/
theorem filesOf_reordered (h : t.Reordered t') (levels : List Level) (path : Path) :
    (filesOf root levels path t').Perm (filesOf root levels path t) := by
  induction h generalizing levels path with
  | refl t => exact .refl _
  | trans _ _ ihab ihbc => exact (ihbc levels path).trans (ihab levels path)
  | @swap first second hne before after =>
    rw [filesOf, filesOf, levelOf_reordered (.swap hne before after), filesIn_append, filesIn_append]
    obtain ⟨name, entry⟩ := first
    obtain ⟨name', entry'⟩ := second
    simp only [filesIn]
    exact (List.perm_append_comm_assoc _ _ _).append_left _
  | @inside t t' h name before after ih =>
    rw [filesOf, filesOf, levelOf_reordered (.inside h name before after), filesIn_append, filesIn_append, filesIn,
      filesIn]
    have hskips : ∀ levels path, skips levels path name t' = skips levels path name t := by
      intro levels path
      rw [skips, skips, h.isFile_eq]
    rw [hskips]
    refine List.Perm.append_left _ (List.Perm.append_right _ ?_)
    split
    · exact .refl _
    · exact ih _ _

/-- a walk starts in both trees or in neither, and comes upon the same files then -/
theorem files?_reordered (h : t.Reordered t') :
    files? t root = none ∧ files? t' root = none ∨
      ∃ found found', files? t root = some found ∧ files? t' root = some found' ∧ found'.Perm found := by
  simp only [files?, levelsAbove_reordered h]
  rcases Tree.rel_cases (h.find? root.path) with ⟨hnone, hnone'⟩ | ⟨s, s', hsome, hsome', hs⟩
  · rw [hnone, hnone']
    exact .inl ⟨rfl, rfl⟩
  · simp only [hsome, hsome', Option.bind_eq_bind, Option.bind_some, hs.isFile_eq]
    split
    · exact .inr ⟨_, _, rfl, rfl, filesOf_reordered root hs _ _⟩
    · exact .inl ⟨rfl, rfl⟩

end Walk

/-! ## Paths -/

namespace Tree

mutual

/-- no directory has two entries of one name -/
def NamesOnce : Tree → Prop
  | file _ => True
  | directory entries => (entries.map Prod.fst).Nodup ∧ EntriesNamesOnce entries

/-- no directory below the entries has two entries of one name -/
def EntriesNamesOnce : List (String × Tree) → Prop
  | [] => True
  | (_, t) :: rest => NamesOnce t ∧ EntriesNamesOnce rest

end

theorem EntriesNamesOnce.of_get? {entries : List (String × Tree)} (h : EntriesNamesOnce entries) {name : String}
    {t : Tree} (hget : Entries.get? name entries = some t) : t.NamesOnce := by
  induction entries with
  | nil => cases hget
  | cons first rest ih =>
    obtain ⟨hfirst, hrest⟩ := h
    rw [Entries.get?] at hget
    split at hget
    · cases hget
      exact hfirst
    · exact ih hrest hget

theorem NamesOnce.find? {t s : Tree} (h : t.NamesOnce) {path : Path} (hfind : t.find? path = some s) :
    s.NamesOnce := by
  induction path generalizing t with
  | nil =>
    cases hfind
    exact h
  | cons name path ih =>
    obtain ⟨child, hchild, hrest⟩ := Option.bind_eq_some_iff.1 hfind
    cases t with
    | file content => cases hchild
    | directory entries => exact ih (h.2.of_get? hchild) hrest

end Tree

namespace Walk

variable (root : Root)

mutual

/-- the paths of the files of a tree begin with the path of the tree -/
theorem prefix_of_mem_filesOf : (levels : List Level) → (path : Path) → (t : Tree) →
    ∀ file ∈ filesOf root levels path t, path <+: file.path
  | levels, path, .file content => by
    intro file hfile
    rw [filesOf, List.mem_singleton] at hfile
    exact hfile ▸ List.prefix_refl path
  | levels, path, .directory entries => by
    intro file hfile
    rw [filesOf] at hfile
    obtain ⟨name, -, hprefix⟩ := prefix_of_mem_filesIn _ path entries file hfile
    exact (List.prefix_append path [name]).trans hprefix

/-- the paths of the files of entries begin with the path of their directory and the name of an entry -/
theorem prefix_of_mem_filesIn : (levels : List Level) → (path : Path) → (entries : List (String × Tree)) →
    ∀ file ∈ filesIn root levels path entries, ∃ name ∈ entries.map Prod.fst, path ++ [name] <+: file.path
  | _, _, [] => by
    intro file hfile
    cases hfile
  | levels, path, (name, t) :: rest => by
    intro file hfile
    rw [filesIn, List.mem_append] at hfile
    rcases hfile with hfile | hfile
    · split at hfile
      · cases hfile
      · exact ⟨name, by simp, prefix_of_mem_filesOf _ _ t file hfile⟩
    · obtain ⟨other, hmem, hprefix⟩ := prefix_of_mem_filesIn levels path rest file hfile
      exact ⟨other, List.mem_cons_of_mem name hmem, hprefix⟩

end

theorem name_unique {path whole : Path} {name name' : String} (h : path ++ [name] <+: whole)
    (h' : path ++ [name'] <+: whole) : name = name' := by
  obtain ⟨rest, rfl⟩ := h
  obtain ⟨rest', h'⟩ := h'
  simp only [List.append_assoc, List.append_cancel_left_eq, List.singleton_append, List.cons.injEq] at h'
  exact h'.1.symm

mutual

theorem nodup_filesOf : (levels : List Level) → (path : Path) → (t : Tree) → t.NamesOnce →
    ((filesOf root levels path t).map FoundFile.path).Nodup
  | _, _, .file _, _ => by simp [filesOf]
  | levels, path, .directory entries, h => by
    rw [filesOf]
    exact nodup_filesIn _ path entries h.1 h.2

theorem nodup_filesIn : (levels : List Level) → (path : Path) → (entries : List (String × Tree)) →
    (entries.map Prod.fst).Nodup → Tree.EntriesNamesOnce entries →
      ((filesIn root levels path entries).map FoundFile.path).Nodup
  | _, _, [], _, _ => List.nodup_nil
  | levels, path, (name, t) :: rest, hnames, h => by
    obtain ⟨hname, hrest⟩ := List.nodup_cons.1 hnames
    rw [filesIn, List.map_append, List.nodup_append]
    refine ⟨?_, nodup_filesIn levels path rest hrest h.2, ?_⟩
    · split
      · exact List.nodup_nil
      · exact nodup_filesOf levels _ t h.1
    -- the paths of the first entry go through its name, and those of the others do not
    · intro first hfirst other hother heq
      obtain ⟨file, hfile, rfl⟩ := List.mem_map.1 hfirst
      obtain ⟨file', hfile', rfl⟩ := List.mem_map.1 hother
      obtain ⟨name', hmem, hprefix'⟩ := prefix_of_mem_filesIn root levels path rest file' hfile'
      split at hfile
      · cases hfile
      · have hprefix := prefix_of_mem_filesOf root levels _ t file hfile
        rw [heq] at hprefix
        exact hname (name_unique hprefix hprefix' ▸ hmem)

end

/-- a walk comes upon each path once -/
theorem nodup_paths {t : Tree} (h : t.NamesOnce) {found : List FoundFile} (hfound : files? t root = some found) :
    (found.map FoundFile.path).Nodup := by
  obtain ⟨s, hs, hfound⟩ := Option.bind_eq_some_iff.1 hfound
  dsimp only at hfound
  split at hfound
  · cases hfound
    exact nodup_filesOf root _ _ s (h.find? hs)
  · cases hfound

end Walk

end BlockTemplates
