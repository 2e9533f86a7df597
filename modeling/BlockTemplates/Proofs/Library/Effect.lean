/-
What one addition changes.

A library answers two questions: which names it has, in which order (`names`), and what a name leads to (`find?`). An
addition that succeeds puts a name that is free behind the others, and a taken name stays where it is (`names_add`). The
name of the new template leads to it then, unless it was taken and `Policy.ignore` keeps the old template; every other
name leads where it led before (`find?_add`).
-/
import BlockTemplates.Proofs.Library.Addition
import BlockTemplates.Proofs.Library.Growth

namespace BlockTemplates

namespace Library

variable {policy : Policy} {lib lib' : Library} {t : Template}

theorem find?_isSome_iff {name : String} : (lib.find? name).isSome = true ↔ name ∈ lib.names :=
  contains_iff

theorem find?_append (fresh : t.name ∉ lib.names) (name : String) :
    (lib.append t fresh).find? name = if t.name = name then some t else lib.find? name := by
  rw [find?, append, List.find?_append]
  by_cases hname : t.name = name
  · have hnone : lib.find? name = none := find?_eq_none_iff.2 (hname ▸ fresh)
    rw [find?] at hnone
    simp [hname, hnone]
  · simp [hname, find?]

theorem find?_replace (taken : t.name ∈ lib.names) (name : String) :
    (lib.replace t).find? name = if t.name = name then some t else lib.find? name := by
  have hnames : (lib.replace t).names = lib.names := map_name_replaceIn t lib.templates
  have hmem : t ∈ (lib.replace t).templates := by
    obtain ⟨old, hold, hname⟩ := List.mem_map.1 taken
    exact List.mem_map.2 ⟨old, hold, if_pos hname⟩
  by_cases hname : t.name = name
  · rw [if_pos hname]
    exact find?_eq_some_iff.2 ⟨hmem, hname⟩
  · rw [if_neg hname]
    rcases hfind : lib.find? name with _ | old
    · rw [find?_eq_none_iff, hnames]
      exact find?_eq_none_iff.1 hfind
    · obtain ⟨hold, rfl⟩ := find?_eq_some_iff.1 hfind
      exact find?_eq_some_iff.2 ⟨List.mem_map.2 ⟨old, hold, if_neg (Ne.symm hname)⟩, rfl⟩

/-- a free name is put behind the others, a taken one stays where it is -/
theorem names_add (h : lib.add t policy = .ok lib') :
    lib'.names = if t.name ∈ lib.names then lib.names else lib.names ++ [t.name] := by
  by_cases hmem : t.name ∈ lib.names
  · rw [if_pos hmem]
    cases policy with
    | error =>
      rw [add_refused ⟨rfl, hmem⟩] at h
      cases h
    | overwrite =>
      rw [add_taken hmem] at h
      cases h
      exact map_name_replaceIn t lib.templates
    | ignore =>
      rw [add_ignored hmem] at h
      cases h
      rfl
  · rw [if_neg hmem]
    rw [add_fresh hmem] at h
    cases h
    simp [names, append]

/-- only the name of the added template leads elsewhere, and not even this one if the addition is ignored -/
theorem find?_add (h : lib.add t policy = .ok lib') (name : String) :
    lib'.find? name =
      if t.name = name ∧ ¬ (policy = .ignore ∧ name ∈ lib.names) then some t else lib.find? name := by
  by_cases hmem : t.name ∈ lib.names
  · cases policy with
    | error =>
      rw [add_refused ⟨rfl, hmem⟩] at h
      cases h
    | overwrite =>
      rw [add_taken hmem] at h
      cases h
      simp [find?_replace hmem]
    | ignore =>
      rw [add_ignored hmem] at h
      cases h
      have hkept : ¬ (t.name = name ∧ ¬ (Policy.ignore = .ignore ∧ name ∈ lib.names)) := by
        rintro ⟨rfl, hfree⟩
        exact hfree ⟨rfl, hmem⟩
      rw [if_neg hkept]
  · rw [add_fresh hmem] at h
    cases h
    rw [find?_append hmem]
    refine if_congr ?_ rfl rfl
    constructor
    · rintro rfl
      exact ⟨rfl, fun hignored => hmem hignored.2⟩
    · exact And.left

end Library

end BlockTemplates
