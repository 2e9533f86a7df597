/-
What additions leave in a library.

Every template that is there after additions was there before or has been added (`mem_of_add`, `mem_of_addAll`).
Templates whose names are free and different are added behind the others, whatever the policy
(`addAll_of_fresh`): with nothing there before, they are the library (`addAll_templates`).
-/
import BlockTemplates.Library

namespace BlockTemplates

namespace Library

variable {lib lib' : Library} {t : Template} {policy : Policy}

theorem add_fresh (h : t.name ∉ lib.names) (policy : Policy) : lib.add t policy = .ok (lib.append t h) := by
  unfold add
  rw [dif_neg h]

theorem add_taken (h : t.name ∈ lib.names) : lib.add t .overwrite = .ok (lib.replace t) := by
  rw [add, dif_pos h]

theorem mem_of_replaceIn {t s : Template} {templates : List Template} (h : s ∈ replaceIn t templates) :
    s = t ∨ s ∈ templates := by
  obtain ⟨old, hold, rfl⟩ := List.mem_map.1 h
  split
  · exact .inl rfl
  · exact .inr hold

/-- an addition leaves nothing but the old templates and the new one -/
theorem mem_of_add {s : Template} (hadd : lib.add t policy = .ok lib') (hs : s ∈ lib'.templates) :
    s = t ∨ s ∈ lib.templates := by
  unfold add at hadd
  split at hadd
  · cases policy with
    | error => cases hadd
    | overwrite =>
      cases hadd
      exact mem_of_replaceIn hs
    | ignore =>
      cases hadd
      exact .inr hs
  · cases hadd
    rcases List.mem_append.1 hs with hs | hs
    · exact .inr hs
    · exact .inl (List.mem_singleton.1 hs)

theorem mem_of_addAll {templates : List Template} {s : Template}
    (hs : s ∈ (addAll policy templates lib).1.templates) : s ∈ templates ∨ s ∈ lib.templates := by
  induction templates generalizing lib with
  | nil => exact .inr hs
  | cons t rest ih =>
    unfold addAll at hs
    split at hs
    · next lib' hadd =>
      rcases ih hs with hrest | hlib
      · exact .inl (List.mem_cons_of_mem t hrest)
      · rcases mem_of_add hadd hlib with rfl | hold
        · exact .inl List.mem_cons_self
        · exact .inr hold
    · exact .inr hs

/-- templates with free and different names are all added, behind the others -/
theorem addAll_of_fresh (policy : Policy) (lib : Library) {templates : List Template}
    (h : ((lib.templates ++ templates).map Template.name).Nodup) :
    addAll policy templates lib = (⟨lib.templates ++ templates, h⟩, .ok ()) := by
  induction templates generalizing lib with
  | nil =>
    obtain ⟨templates, nodup⟩ := lib
    simp only [addAll, List.append_nil]
  | cons t rest ih =>
    have hfresh : t.name ∉ lib.names := by
      intro hmem
      rw [List.map_append, List.nodup_append] at h
      exact h.2.2 _ hmem _ (List.mem_map_of_mem List.mem_cons_self) rfl
    have hsplit : lib.templates ++ t :: rest = (lib.append t hfresh).templates ++ rest := by
      simp only [append, List.append_assoc, List.cons_append, List.nil_append]
    have hrest := ih (lib.append t hfresh) (hsplit ▸ h)
    rw [addAll, add_fresh hfresh]
    simp only [hrest, hsplit]

/-- added to nothing, the templates of a library are that library -/
theorem addAll_templates (policy : Policy) (lib : Library) : addAll policy lib.templates empty = (lib, .ok ()) :=
  addAll_of_fresh policy empty lib.nodup

end Library

end BlockTemplates
