/-
Adding templates by way of a library of their own.

Templates that are collected in a library, which is merged then, meet the policy twice: among themselves, and with what
is there. It is as if they were added one after another: `addAll_ok_iff_merge`. The step is `merge_add_iff`: to put one
more template into the library that is merged is to add it after the merge. The case with an argument is a name that the
merged library has already and that is overwritten: there the new template takes the place of the old one, while after
the merge it takes the place of what the merge has left (`addAll_replaceIn`).
-/
import BlockTemplates.Proofs.Library.Addition
import BlockTemplates.Proofs.Library.Growth
import Mathlib.Data.List.Induction

namespace BlockTemplates

namespace Library

theorem eq_of_templates {a b : Library} (h : a.templates = b.templates) : a = b := by
  obtain ⟨templates, nodup⟩ := a
  cases h
  rfl

variable {policy : Policy} {lib lib' : Library} {t : Template}

/-! ## Additions that succeed -/

theorem addAll_nil (policy : Policy) (lib : Library) : addAll policy [] lib = (lib, .ok ()) := rfl

theorem addAll_cons_ok_iff {rest : List Template} :
    addAll policy (t :: rest) lib = (lib', .ok ()) ↔
      ∃ next, lib.add t policy = .ok next ∧ addAll policy rest next = (lib', .ok ()) := by
  rw [addAll]
  rcases lib.add t policy with e | next
  · simp
  · simp

theorem addAll_append_ok_iff {before after : List Template} :
    addAll policy (before ++ after) lib = (lib', .ok ()) ↔
      ∃ next, addAll policy before lib = (next, .ok ()) ∧ addAll policy after next = (lib', .ok ()) := by
  induction before generalizing lib with
  | nil => simp [addAll]
  | cons t before ih =>
    simp only [List.cons_append, addAll_cons_ok_iff, ih]
    constructor
    · rintro ⟨first, hadd, next, hbefore, hafter⟩
      exact ⟨next, ⟨first, hadd, hbefore⟩, hafter⟩
    · rintro ⟨next, ⟨first, hadd, hbefore⟩, hafter⟩
      exact ⟨first, hadd, next, hbefore, hafter⟩

theorem addAll_singleton_ok_iff : addAll policy [t] lib = (lib', .ok ()) ↔ lib.add t policy = .ok lib' := by
  simp [addAll_cons_ok_iff, addAll_nil]

theorem addAll_concat_ok_iff {before : List Template} :
    addAll policy (before ++ [t]) lib = (lib', .ok ()) ↔
      ∃ next, addAll policy before lib = (next, .ok ()) ∧ next.add t policy = .ok lib' := by
  simp only [addAll_append_ok_iff, addAll_singleton_ok_iff]

/-- an added template has its name in the library -/
theorem mem_names_of_add (h : lib.add t policy = .ok lib') : t.name ∈ lib'.names := by
  by_cases hmem : t.name ∈ lib.names
  · exact (names_prefix_add h).subset hmem
  · rw [add_fresh hmem] at h
    cases h
    exact List.mem_map_of_mem (List.mem_append_right _ List.mem_cons_self)

theorem mem_names_of_addAll {templates : List Template} (h : addAll policy templates lib = (lib', .ok ()))
    (ht : t ∈ templates) : t.name ∈ lib'.names := by
  induction templates generalizing lib with
  | nil => cases ht
  | cons s rest ih =>
    obtain ⟨next, hadd, hrest⟩ := addAll_cons_ok_iff.1 h
    rcases List.mem_cons.1 ht with rfl | ht
    · have hgrows : next.names <+: (addAll policy rest next).1.names := (grows_names policy).addAll rest next
      rw [hrest] at hgrows
      exact hgrows.subset (mem_names_of_add hadd)
    · exact ih hrest ht

/-! ## Overwriting -/

theorem replaceIn_of_not_mem {templates : List Template} (h : t.name ∉ templates.map Template.name) :
    replaceIn t templates = templates := by
  refine (List.map_congr_left fun old hold => ?_).trans (List.map_id templates)
  have hne : old.name ≠ t.name := fun he => h (he ▸ List.mem_map_of_mem hold)
  rw [if_neg hne, id]

/-- a template that takes the place of one that has been added -/
theorem add_replace {old : Template} (hname : old.name = t.name) (h : lib.add old .overwrite = .ok lib') :
    lib.add t .overwrite = .ok (lib'.replace t) := by
  by_cases hmem : t.name ∈ lib.names
  · rw [add_taken (hname ▸ hmem)] at h
    cases h
    rw [add_taken hmem]
    refine congrArg Except.ok (eq_of_templates ?_)
    simp only [replace, replaceIn, List.map_map]
    refine List.map_congr_left fun s _ => ?_
    simp only [Function.comp, hname]
    split <;> simp [*]
  · rw [add_fresh (hname ▸ hmem)] at h
    cases h
    rw [add_fresh hmem]
    refine congrArg Except.ok (eq_of_templates ?_)
    have hkept : replaceIn t lib.templates = lib.templates := replaceIn_of_not_mem hmem
    simp only [replace, append, replaceIn, List.map_append, List.map_cons, List.map_nil, hname, ↓reduceIte]
    rw [← replaceIn, hkept]

/-- templates of different names take their places in any order -/
theorem add_replace_of_ne {s : Template} (hne : s.name ≠ t.name) (h : lib.add s .overwrite = .ok lib') :
    (lib.replace t).add s .overwrite = .ok (lib'.replace t) := by
  have hnames : (lib.replace t).names = lib.names := map_name_replaceIn t lib.templates
  by_cases hmem : s.name ∈ lib.names
  · rw [add_taken hmem] at h
    cases h
    rw [add_taken (hnames ▸ hmem)]
    refine congrArg Except.ok (eq_of_templates ?_)
    simp only [replace, replaceIn, List.map_map]
    refine List.map_congr_left fun old _ => ?_
    simp only [Function.comp]
    by_cases hold : old.name = t.name
    · simp [hold, hne.symm]
    · by_cases hs : old.name = s.name <;> simp [hold, hs, hne]
  · rw [add_fresh hmem] at h
    cases h
    rw [add_fresh (hnames ▸ hmem)]
    refine congrArg Except.ok (eq_of_templates ?_)
    simp only [replace, append, replaceIn, List.map_append, List.map_cons, List.map_nil, hne, ↓reduceIte]

theorem addAll_replace_of_ne {templates : List Template} (hne : t.name ∉ templates.map Template.name)
    (h : addAll .overwrite templates lib = (lib', .ok ())) :
    addAll .overwrite templates (lib.replace t) = (lib'.replace t, .ok ()) := by
  induction templates generalizing lib with
  | nil =>
    cases h
    rfl
  | cons s rest ih =>
    obtain ⟨hs, hrest⟩ := List.ne_and_not_mem_of_not_mem_cons hne
    obtain ⟨next, hadd, hnext⟩ := addAll_cons_ok_iff.1 h
    exact addAll_cons_ok_iff.2 ⟨next.replace t, add_replace_of_ne hs.symm hadd, ih hrest hnext⟩

/-- a template takes the place of another before or after both are overwritten into a library -/
theorem addAll_replaceIn {templates : List Template} (hnodup : (templates.map Template.name).Nodup)
    (hmem : t.name ∈ templates.map Template.name) (h : addAll .overwrite templates lib = (lib', .ok ())) :
    addAll .overwrite (replaceIn t templates) lib = (lib'.replace t, .ok ()) := by
  induction templates generalizing lib with
  | nil => cases hmem
  | cons s rest ih =>
    obtain ⟨hs, hrest⟩ := List.nodup_cons.1 hnodup
    obtain ⟨next, hadd, hnext⟩ := addAll_cons_ok_iff.1 h
    by_cases hname : s.name = t.name
    · have hcons : replaceIn t (s :: rest) = t :: rest := by
        rw [replaceIn, List.map_cons, if_pos hname, ← replaceIn, replaceIn_of_not_mem (hname ▸ hs)]
      rw [hcons]
      exact addAll_cons_ok_iff.2 ⟨_, add_replace hname hadd, addAll_replace_of_ne (hname ▸ hs) hnext⟩
    · have hcons : replaceIn t (s :: rest) = s :: replaceIn t rest := by
        rw [replaceIn, List.map_cons, if_neg hname, ← replaceIn]
      rw [hcons]
      have hmem' := (List.mem_cons.1 hmem).resolve_left (Ne.symm hname)
      exact addAll_cons_ok_iff.2 ⟨next, hadd, ih hrest hmem' hnext⟩

theorem exists_add (h : policy ≠ .error) (t : Template) (lib : Library) : ∃ lib', lib.add t policy = .ok lib' :=
  add_ok_of_not_refused fun hand => h hand.1

/-- unless taken names are an error, all templates can be added -/
theorem exists_addAll (h : policy ≠ .error) (templates : List Template) (lib : Library) :
    ∃ lib', addAll policy templates lib = (lib', .ok ()) := by
  induction templates generalizing lib with
  | nil => exact ⟨lib, rfl⟩
  | cons t rest ih =>
    obtain ⟨next, hadd⟩ := exists_add h t lib
    obtain ⟨lib', hrest⟩ := ih next
    exact ⟨lib', addAll_cons_ok_iff.2 ⟨next, hadd, hrest⟩⟩

theorem addAll_ok (h : policy ≠ .error) (templates : List Template) (lib : Library) :
    addAll policy templates lib = ((addAll policy templates lib).1, .ok ()) := by
  obtain ⟨lib', hadd⟩ := exists_addAll h templates lib
  rw [hadd]

/-! ## Merging -/

/-- to merge a library with one more template is to merge it and add the template -/
theorem merge_add_iff {own : Library} :
    (∃ own', own.add t policy = .ok own' ∧ lib.merge own' policy = (lib', .ok ())) ↔
      ∃ merged, lib.merge own policy = (merged, .ok ()) ∧ merged.add t policy = .ok lib' := by
  by_cases hmem : t.name ∈ own.names
  · obtain ⟨s, hs, hname⟩ := List.mem_map.1 hmem
    have hmerged : ∀ {merged}, lib.merge own policy = (merged, .ok ()) → t.name ∈ merged.names :=
      fun h => hname ▸ mem_names_of_addAll h hs
    cases policy with
    | error =>
      constructor
      · rintro ⟨own', hadd, -⟩
        rw [add_refused ⟨rfl, hmem⟩] at hadd
        cases hadd
      · rintro ⟨merged, hmerge, hadd⟩
        rw [add_refused ⟨rfl, hmerged hmerge⟩] at hadd
        cases hadd
    | overwrite =>
      obtain ⟨merged, hmerge⟩ := exists_addAll (nofun : Policy.overwrite ≠ .error) own.templates lib
      have hreplace : lib.merge (own.replace t) .overwrite = (merged.replace t, .ok ()) :=
        addAll_replaceIn own.nodup hmem hmerge
      have hadd := add_taken (hmerged hmerge)
      constructor
      · rintro ⟨own', hown, h⟩
        rw [add_taken hmem] at hown
        cases hown
        cases hreplace.symm.trans h
        exact ⟨merged, hmerge, hadd⟩
      · rintro ⟨merged', h, hlast⟩
        cases hmerge.symm.trans h
        cases hadd.symm.trans hlast
        exact ⟨own.replace t, add_taken hmem, hreplace⟩
    | ignore =>
      constructor
      · rintro ⟨own', hadd, h⟩
        rw [add_ignored hmem] at hadd
        cases hadd
        exact ⟨lib', h, add_ignored (hmerged h)⟩
      · rintro ⟨merged, h, hadd⟩
        rw [add_ignored (hmerged h)] at hadd
        cases hadd
        exact ⟨own, add_ignored hmem, h⟩
  · have hsplit : lib.merge (own.append t hmem) policy = addAll policy (own.templates ++ [t]) lib := rfl
    rw [add_fresh hmem, merge, ← addAll_concat_ok_iff, ← hsplit]
    simp

/-- templates are added exactly if they can be collected in a library of their own and this be merged, and to the same
effect -/
theorem addAll_ok_iff_merge {templates : List Template} :
    addAll policy templates lib = (lib', .ok ()) ↔
      ∃ own, addAll policy templates empty = (own, .ok ()) ∧ lib.merge own policy = (lib', .ok ()) := by
  induction templates using List.reverseRecOn generalizing lib' with
  | nil => simp [addAll, merge, empty]
  | append_singleton before t ih =>
    calc addAll policy (before ++ [t]) lib = (lib', .ok ())
        ↔ ∃ next, addAll policy before lib = (next, .ok ()) ∧ next.add t policy = .ok lib' := addAll_concat_ok_iff
      _ ↔ ∃ own, addAll policy before empty = (own, .ok ()) ∧
            ∃ next, lib.merge own policy = (next, .ok ()) ∧ next.add t policy = .ok lib' := by
          simp only [ih, ← exists_and_left, ← exists_and_right, and_assoc]
          exact exists_comm
      _ ↔ ∃ own, addAll policy before empty = (own, .ok ()) ∧
            ∃ own', own.add t policy = .ok own' ∧ lib.merge own' policy = (lib', .ok ()) := by
          simp only [merge_add_iff]
      _ ↔ ∃ own', addAll policy (before ++ [t]) empty = (own', .ok ()) ∧ lib.merge own' policy = (lib', .ok ()) := by
          simp only [addAll_concat_ok_iff, ← exists_and_left, ← exists_and_right, and_assoc]
          exact exists_comm

end Library

end BlockTemplates
