/-
Merging as a union.

The names of a merge are those of the library that is merged into, and behind them those of the other that are new, in
its order (`names_merge`). What a name leads to is up to the policy: overwriting prefers the other library, ignoring the
one that is merged into (`find?_merge_overwrite`, `find?_merge_ignore`). Merges into merges can be regrouped under every
policy, as long as they succeed (`merge_merge_ok_iff`). `merge_union` puts this together.

Under the policy that refuses taken names, libraries that share no name are put one behind the other, and else the
merge stops at the first name that is taken. The templates that have been added by then do not change which this is: a
library has each name once (`merge_stops_at_taken`).
-/
import BlockTemplates.Proofs.Library.Catalogue
import BlockTemplates.Proofs.Library.Policies

namespace BlockTemplates

namespace Library

variable {policy : Policy} {lib lib' a b c : Library}

/-! ## Names and look-ups of merges -/

/-- different names that are new come behind the others, in their order -/
theorem names_addAll_of_nodup (h : policy ≠ .error) {templates : List Template}
    (hnodup : (templates.map Template.name).Nodup) (lib : Library) :
    (addAll policy templates lib).1.names =
      lib.names ++ (templates.map Template.name).filter fun name => name ∉ lib.names := by
  induction templates generalizing lib with
  | nil => exact (List.append_nil lib.names).symm
  | cons t rest ih =>
    obtain ⟨ht, hrest⟩ := List.nodup_cons.1 hnodup
    obtain ⟨next, hadd⟩ := exists_add h t lib
    rw [addAll_cons_of_add hadd, ih hrest, names_add hadd, List.map_cons]
    by_cases htaken : t.name ∈ lib.names
    · rw [if_pos htaken, List.filter_cons_of_neg (by simpa using htaken)]
    · -- the new name is not among those that follow, so they are new as before
      have hsame : ((rest.map Template.name).filter fun name => name ∉ lib.names ++ [t.name]) =
          (rest.map Template.name).filter fun name => name ∉ lib.names := by
        refine List.filter_congr fun name hname => ?_
        have hne : name ≠ t.name := fun he => ht (he ▸ hname)
        simp [hne]
      rw [if_neg htaken, hsame, List.filter_cons_of_pos (by simpa using htaken), List.append_assoc,
        List.singleton_append]

theorem names_merge (h : policy ≠ .error) (a b : Library) :
    (a.merge b policy).1.names = a.names ++ b.names.filter fun name => name ∉ a.names :=
  names_addAll_of_nodup h b.nodup a

/-- in a library a name has no other template than its last -/
theorem lastNamed?_templates (lib : Library) (name : String) : lastNamed? name lib.templates = lib.find? name := by
  have hfind := find?_addAll_overwrite lib.templates empty name
  rw [addAll_templates] at hfind
  rw [hfind]
  exact Option.or_none.symm

theorem find?_merge_overwrite (a b : Library) (name : String) :
    (a.merge b .overwrite).1.find? name = (b.find? name).or (a.find? name) := by
  rw [merge, find?_addAll_overwrite, lastNamed?_templates]

theorem find?_merge_ignore (a b : Library) (name : String) :
    (a.merge b .ignore).1.find? name = (a.find? name).or (b.find? name) :=
  find?_addAll_ignore b.templates a name

theorem merge_ok (h : policy ≠ .error) (a b : Library) : a.merge b policy = ((a.merge b policy).1, .ok ()) :=
  addAll_ok h b.templates a

/-! ## Regrouping -/

/-- two libraries can be merged one after the other exactly if the second can be merged into the first and the outcome
then, and to the same effect -/
theorem merge_merge_ok_iff :
    (∃ next, a.merge b policy = (next, .ok ()) ∧ next.merge c policy = (lib', .ok ())) ↔
      ∃ own, b.merge c policy = (own, .ok ()) ∧ a.merge own policy = (lib', .ok ()) := by
  calc (∃ next, a.merge b policy = (next, .ok ()) ∧ next.merge c policy = (lib', .ok ()))
      ↔ addAll policy (b.templates ++ c.templates) a = (lib', .ok ()) := addAll_append_ok_iff.symm
    _ ↔ ∃ own, addAll policy (b.templates ++ c.templates) empty = (own, .ok ()) ∧
          a.merge own policy = (lib', .ok ()) := addAll_ok_iff_merge
    _ ↔ ∃ own, b.merge c policy = (own, .ok ()) ∧ a.merge own policy = (lib', .ok ()) := by
        simp only [addAll_append_ok_iff, addAll_templates, Prod.mk.injEq, and_true, exists_eq_left', merge]

theorem merge_assoc (h : policy ≠ .error) (a b c : Library) :
    (a.merge b policy).1.merge c policy = a.merge (b.merge c policy).1 policy := by
  obtain ⟨own, hown, hmerge⟩ := merge_merge_ok_iff.1 ⟨_, merge_ok h a b, merge_ok h (a.merge b policy).1 c⟩
  rw [hown, hmerge]
  exact merge_ok h _ c

/-- **Merging is a union.** Unless taken names are an error, merging succeeds, the grouping of merges does not matter,
and nothing changes with the empty library on either side. The names are those of the library that is merged into, and
behind them the new names of the other in its order. What overwriting leaves under a name, ignoring leaves with the
libraries exchanged. -/
theorem merge_union (h : policy ≠ .error) :
    (∀ a b : Library, (a.merge b policy).2 = .ok () ∧
      (a.merge b policy).1.names = a.names ++ b.names.filter fun name => name ∉ a.names) ∧
    (∀ a b c : Library, (a.merge b policy).1.merge c policy = a.merge (b.merge c policy).1 policy) ∧
    (∀ a : Library, a.merge empty policy = (a, .ok ()) ∧ empty.merge a policy = (a, .ok ())) ∧
    ∀ (a b : Library) (name : String), (a.merge b .overwrite).1.find? name = (b.merge a .ignore).1.find? name := by
  refine ⟨?_, merge_assoc h, ?_, ?_⟩
  · exact fun a b => ⟨congrArg Prod.snd (merge_ok h a b), names_merge h a b⟩
  · exact fun a => ⟨rfl, addAll_templates policy a⟩
  · intro a b name
    rw [find?_merge_overwrite, find?_merge_ignore]

def pageTemplates : Library :=
  ⟨[⟨"banner", "1", by decide⟩, ⟨"article", "1", by decide⟩], by decide⟩

/-- a template of the page, and one more -/
def themeTemplates : Library :=
  ⟨[⟨"margin", "2", by decide⟩, ⟨"article", "2", by decide⟩], by decide⟩

/-- a template of the page, and one of the theme -/
def siteTemplates : Library :=
  ⟨[⟨"margin", "3", by decide⟩, ⟨"banner", "3", by decide⟩], by decide⟩

theorem merge_union_site :
    Policy.overwrite ≠ .error ∧
      (pageTemplates.merge themeTemplates .overwrite).1.merge siteTemplates .overwrite =
        pageTemplates.merge (themeTemplates.merge siteTemplates .overwrite).1 .overwrite ∧
      ((pageTemplates.merge themeTemplates .overwrite).1.merge siteTemplates .overwrite).1.templates.map
        (fun t => (t.name, t.body)) = [("banner", "3"), ("article", "2"), ("margin", "3")] ∧
      (pageTemplates.merge themeTemplates .ignore).1.templates.map (fun t => (t.name, t.body)) =
        [("banner", "1"), ("article", "1"), ("margin", "2")] := by
  have hoverwrites : Policy.overwrite ≠ .error := nofun
  refine ⟨hoverwrites, (merge_union hoverwrites).2.1 pageTemplates themeTemplates siteTemplates, ?_⟩
  decide +kernel

/-! ## Refused merges -/

theorem addAll_append_of_ok {before : List Template} (h : addAll policy before lib = (lib', .ok ()))
    (after : List Template) : addAll policy (before ++ after) lib = addAll policy after lib' := by
  induction before generalizing lib with
  | nil =>
    cases h
    rfl
  | cons t before ih =>
    obtain ⟨next, hadd, hrest⟩ := addAll_cons_ok_iff.1 h
    rw [List.cons_append, addAll_cons_of_add hadd, ih hrest]

/-- libraries that share no name have different names together -/
theorem nodup_append_of_free {templates : List Template} (hnodup : (templates.map Template.name).Nodup)
    (hfree : ∀ t ∈ templates, t.name ∉ lib.names) : ((lib.templates ++ templates).map Template.name).Nodup := by
  rw [List.map_append, List.nodup_append]
  refine ⟨lib.nodup, hnodup, ?_⟩
  rintro _ hold name hnew rfl
  obtain ⟨t, ht, rfl⟩ := List.mem_map.1 hnew
  exact hfree t ht hold

/-- where no name is taken, both libraries are there, one behind the other -/
theorem merge_of_free (h : ∀ t ∈ b.templates, t.name ∉ a.names) (policy : Policy) :
    ∃ merged, a.merge b policy = (merged, .ok ()) ∧ merged.templates = a.templates ++ b.templates :=
  ⟨_, addAll_of_fresh policy a (nodup_append_of_free b.nodup h), rfl⟩

/-- the templates before the first whose name is taken are added, and the others are not -/
theorem merge_of_taken {before after : List Template} {t : Template} (hsplit : b.templates = before ++ t :: after)
    (hfree : ∀ s ∈ before, s.name ∉ a.names) (htaken : t.name ∈ a.names) :
    ∃ merged, a.merge b .error = (merged, .error (.duplicateTemplate t.name none)) ∧
      merged.templates = a.templates ++ before := by
  have hnodup : (before.map Template.name).Nodup := by
    have hnames := b.nodup
    rw [hsplit, List.map_append] at hnames
    exact hnames.of_append_left
  have hfresh := nodup_append_of_free hnodup hfree
  have hstill : t.name ∈ (Library.mk (a.templates ++ before) hfresh).names := by
    rw [names, List.map_append]
    exact List.mem_append_left _ htaken
  refine ⟨⟨a.templates ++ before, hfresh⟩, ?_, rfl⟩
  rw [merge, hsplit, addAll_append_of_ok (addAll_of_fresh .error a hfresh), addAll, add_refused ⟨rfl, hstill⟩]

/-- no name is taken, or one is the first -/
theorem free_or_first_taken (a : Library) (templates : List Template) :
    (∀ t ∈ templates, t.name ∉ a.names) ∨ ∃ before t after, templates = before ++ t :: after ∧
      (∀ s ∈ before, s.name ∉ a.names) ∧ t.name ∈ a.names := by
  rcases hfind : templates.find? fun t => t.name ∈ a.names with _ | t
  · exact .inl fun t ht => by simpa using List.find?_eq_none.1 hfind t ht
  · obtain ⟨htaken, before, after, hsplit, hfree⟩ := List.find?_eq_some_iff_append.1 hfind
    exact .inr ⟨before, t, after, hsplit, fun s hs => by simpa using hfree s hs, by simpa using htaken⟩

/-- **A merge that refuses taken names stops at the first.** It succeeds exactly if the libraries share no name, and
then the templates of `b` come behind those of `a`. Else it fails with the first name of `b` that is taken, and exactly
the templates of `b` before that one come behind those of `a`. A merge that looks every name up in the index of `b` does
the same, so no name is ever missing. -/
theorem merge_stops_at_taken (a b : Library) :
    ((a.merge b .error).2 = .ok () ↔ a.names.Disjoint b.names) ∧
    ((a.merge b .error).2 = .ok () ∧ (a.merge b .error).1.templates = a.templates ++ b.templates ∨
      ∃ before t after, b.templates = before ++ t :: after ∧ (∀ s ∈ before, s.name ∉ a.names) ∧ t.name ∈ a.names ∧
        (a.merge b .error).2 = .error (.duplicateTemplate t.name none) ∧
        (a.merge b .error).1.templates = a.templates ++ before) ∧
    a.catalogue.merge b.catalogue .error = ((a.merge b .error).1.catalogue, (a.merge b .error).2) ∧
    ∀ name, (a.merge b .error).2 ≠ .error (.missingTemplate name) := by
  have hdisjoint : a.names.Disjoint b.names ↔ ∀ t ∈ b.templates, t.name ∉ a.names := by
    rw [List.disjoint_right, names, names, List.forall_mem_map]
  rcases free_or_first_taken a b.templates with hfree | ⟨before, t, after, hsplit, hfree, htaken⟩
  · obtain ⟨merged, hmerge, htemplates⟩ := merge_of_free hfree .error
    rw [hdisjoint, hmerge]
    refine ⟨iff_of_true rfl hfree, .inl ⟨rfl, htemplates⟩, hmerge ▸ catalogue_merge a b .error, ?_⟩
    exact fun _ hmissing => by cases hmissing
  · obtain ⟨merged, hmerge, htemplates⟩ := merge_of_taken hsplit hfree htaken
    have hshared : ¬ ∀ t ∈ b.templates, t.name ∉ a.names := by
      intro hall
      exact hall t (hsplit ▸ List.mem_append_right before List.mem_cons_self) htaken
    rw [hdisjoint, hmerge]
    refine ⟨iff_of_false (fun hok => by cases hok) hshared,
      .inr ⟨before, t, after, hsplit, hfree, htaken, rfl, htemplates⟩, hmerge ▸ catalogue_merge a b .error, ?_⟩
    exact fun _ hmissing => by cases hmissing

/-- what comes before the name that is taken has been added -/
example : (pageTemplates.merge siteTemplates .error).1.names = ["banner", "article", "margin"] ∧
    (pageTemplates.merge siteTemplates .error).2 = .error (.duplicateTemplate "banner" none) := by
  decide +kernel

end Library

end BlockTemplates
