/-
What additions, merges and parses keep of a library, also when they fail half-way.

What one addition does to a library, merges and parses do as well (`Grows.merge`, `Grows.parse`).
- `grows_names`: the names that are there stay, in their order, and new ones come behind them.
- `grows_subset`: unless templates are overwritten, all of them stay. `lib.Subset lib'` says that every template of
  `lib` is in `lib'`, so a name that is found in `lib` has the same body in `lib'`.
-/
import BlockTemplates.Markup.Scan
import Mathlib.Data.List.Nodup

namespace BlockTemplates

namespace Library

/-- every template of `lib` is in `lib'` as well -/
def Subset (lib lib' : Library) : Prop :=
  ∀ t ∈ lib.templates, t ∈ lib'.templates

instance (lib lib' : Library) : Decidable (lib.Subset lib') :=
  inferInstanceAs (Decidable (∀ t ∈ lib.templates, t ∈ lib'.templates))

theorem Subset.refl (lib : Library) : lib.Subset lib :=
  fun _ h => h

theorem Subset.trans {a b c : Library} (hab : a.Subset b) (hbc : b.Subset c) : a.Subset c :=
  fun t h => hbc t (hab t h)

/-- the template of a name is the one template that has it -/
theorem find?_eq_some_iff {lib : Library} {name : String} {t : Template} :
    lib.find? name = some t ↔ t ∈ lib.templates ∧ t.name = name := by
  constructor
  · exact fun h => ⟨List.mem_of_find?_eq_some h, name_of_find? h⟩
  · rintro ⟨hmem, rfl⟩
    rcases hfind : lib.find? t.name with _ | t'
    · exact absurd (List.mem_map_of_mem hmem) (find?_eq_none_iff.1 hfind)
    · have hmem' := List.mem_of_find?_eq_some hfind
      rw [List.inj_on_of_nodup_map lib.nodup hmem' hmem (name_of_find? hfind)]

theorem Subset.find? {lib lib' : Library} (h : lib.Subset lib') {name : String} {t : Template}
    (hfind : lib.find? name = some t) : lib'.find? name = some t := by
  rw [find?_eq_some_iff] at hfind ⊢
  exact ⟨h t hfind.1, hfind.2⟩

/-! ## Additions -/

theorem contains_iff {lib : Library} {name : String} : lib.contains name = true ↔ name ∈ lib.names := by
  rw [contains, Option.isSome_iff_ne_none, ne_eq, find?_eq_none_iff, not_not]

/-- an addition fails only if the name is taken and the policy refuses that -/
theorem add_refused {lib : Library} {t : Template} {policy : Policy} (h : policy = .error ∧ t.name ∈ lib.names) :
    lib.add t policy = .error (.duplicateTemplate t.name none) := by
  obtain ⟨rfl, hmem⟩ := h
  rw [add, dif_pos hmem]

theorem add_ok_of_not_refused {lib : Library} {t : Template} {policy : Policy}
    (h : ¬ (policy = .error ∧ t.name ∈ lib.names)) : ∃ lib', lib.add t policy = .ok lib' := by
  unfold add
  split
  · next hmem =>
    cases policy with
    | error => exact absurd ⟨rfl, hmem⟩ h
    | overwrite => exact ⟨_, rfl⟩
    | ignore => exact ⟨_, rfl⟩
  · exact ⟨_, rfl⟩

theorem add_ignored {lib : Library} {t : Template} (h : t.name ∈ lib.names) : lib.add t .ignore = .ok lib := by
  rw [add, dif_pos h]

theorem subset_append (lib : Library) (t : Template) (fresh : t.name ∉ lib.names) : lib.Subset (lib.append t fresh) :=
  fun _ h => List.mem_append_left [t] h

theorem subset_add {lib lib' : Library} {t : Template} {policy : Policy} (hpolicy : policy ≠ .overwrite)
    (h : lib.add t policy = .ok lib') : lib.Subset lib' := by
  unfold add at h
  split at h
  · cases policy with
    | error => cases h
    | overwrite => exact absurd rfl hpolicy
    | ignore =>
      cases h
      exact Subset.refl lib
  · cases h
    exact subset_append lib t _

theorem names_prefix_add {lib lib' : Library} {t : Template} {policy : Policy} (h : lib.add t policy = .ok lib') :
    lib.names <+: lib'.names := by
  unfold add at h
  split at h
  · cases policy with
    | error => cases h
    | overwrite =>
      cases h
      simp only [names, replace, map_name_replaceIn]
      exact List.prefix_refl _
    | ignore =>
      cases h
      exact List.prefix_refl lib.names
  · cases h
    simp only [names, append, List.map_append]
    exact List.prefix_append _ _

/-! ## Additions in sequence -/

/-- a relation of a library and a later one, if they are related after one addition -/
structure Grows (policy : Policy) (R : Library → Library → Prop) : Prop where
  refl : ∀ lib, R lib lib
  trans : ∀ {a b c}, R a b → R b c → R a c
  add : ∀ {lib t lib'}, lib.add t policy = .ok lib' → R lib lib'

theorem grows_subset {policy : Policy} (h : policy ≠ .overwrite) : Grows policy Subset :=
  ⟨Subset.refl, Subset.trans, subset_add h⟩

theorem grows_names (policy : Policy) : Grows policy fun lib lib' => lib.names <+: lib'.names :=
  ⟨fun _ => List.prefix_refl _, List.IsPrefix.trans, names_prefix_add⟩

section Grows

variable {policy : Policy} {R : Library → Library → Prop} (hR : Grows policy R)

include hR

theorem Grows.addAll (templates : List Template) (lib : Library) : R lib (addAll policy templates lib).1 := by
  induction templates generalizing lib with
  | nil => exact hR.refl lib
  | cons t rest ih =>
    unfold Library.addAll
    split
    · next lib' h => exact hR.trans (hR.add h) (ih lib')
    · exact hR.refl lib

theorem Grows.merge (lib other : Library) : R lib (lib.merge other policy).1 :=
  hR.addAll other.templates lib

end Grows

end Library

/-! ## Parses -/

namespace Markup

/-- the end of a block adds one template -/
theorem close_ok {policy : Policy} {lib lib' : Library} {name body : List Char} {line : Nat}
    (h : close policy lib name line body = .ok lib') : ∃ t, lib.add t policy = .ok lib' := by
  unfold close at h
  rcases hmake : Template.make (String.ofList name) (String.ofList body) with e | t
  · rw [hmake] at h
    cases h
  · rw [hmake] at h
    refine ⟨t, ?_⟩
    have hadd : (lib.add t policy).mapError (withLine line) = .ok lib' := h
    rcases hresult : lib.add t policy with e | added
    · rw [hresult] at hadd
      cases hadd
    · rw [hresult] at hadd
      cases hadd
      rfl

/-- a line adds at most one template -/
theorem step_ok {policy : Policy} {lib lib' : Library} {scan scan' : Scan} {number : Nat} {line : List Char}
    (h : step policy lib scan number line = .ok (lib', scan')) : lib' = lib ∨ ∃ t, lib.add t policy = .ok lib' := by
  have hclose : ∀ {name : List Char} {start : Nat} {body : List Char},
      (close policy lib name start body).map (fun lib => (lib, Scan.searching)) = .ok (lib', scan') →
        ∃ t, lib.add t policy = .ok lib' := by
    intro name start body h
    rcases hresult : close policy lib name start body with e | closed
    · rw [hresult] at h
      cases h
    · rw [hresult] at h
      cases h
      exact close_ok hresult
  cases scan with
  | searching =>
    simp only [step, openLine] at h
    split at h
    · cases h
      exact .inl rfl
    · split at h
      · cases h
      · split at h
        · cases h
          exact .inl rfl
        · split at h
          · exact .inr (hclose h)
          · cases h
            exact .inl rfl
  | collecting name start body =>
    simp only [step] at h
    split at h
    · exact .inr (hclose h)
    · cases h
      exact .inl rfl
  | skipping name start =>
    cases h
    exact .inl rfl

theorem grows_scanLines {policy : Policy} {R : Library → Library → Prop} (hR : Library.Grows policy R)
    (lines : List (List Char)) (number : Nat) (scan : Scan) (lib : Library) :
    R lib (scanLines policy number lines scan lib).1 := by
  induction lines generalizing number scan lib with
  | nil => exact hR.refl lib
  | cons line rest ih =>
    unfold scanLines
    split
    · next lib' scan' h =>
      rcases step_ok h with rfl | ⟨t, hadd⟩
      · exact ih (number + 1) scan' lib'
      · exact hR.trans (hR.add hadd) (ih (number + 1) scan' lib')
    · exact hR.refl lib

end Markup

theorem Library.Grows.parse {policy : Policy} {R : Library → Library → Prop} (hR : Library.Grows policy R)
    (lib : Library) (input : String) : R lib (lib.parse input policy).1 :=
  Markup.grows_scanLines hR _ 1 .searching lib

end BlockTemplates
