/-
Loading the same templates again.

After a load every name of it is taken, so a second one brings no new names (`names_addAll_of_taken`). What the names
lead to does not change either (`find?_addAll_again`). When templates are overwritten, a name leads to the last template
that has it, and while earlier ones take its place during the second load, it is back at the end. When they are ignored,
no template is replaced. A library is its names with what they lead to, so nothing has changed at all (`addAll_again`).
`reload_unchanged` says this of parses and merges.
-/
import BlockTemplates.Proofs.Library.Catalogue
import BlockTemplates.Proofs.Library.Policies

namespace BlockTemplates

namespace Library

variable {policy : Policy}

theorem eq_of_catalogue {a b : Library} (h : a.catalogue = b.catalogue) : a = b :=
  eq_of_templates (by rw [← templates_catalogue a, h, templates_catalogue])

/-! ## Additions of taken names -/

/-- templates whose names are taken change no names, whether they are refused or not -/
theorem names_addAll_of_taken {lib : Library} {templates : List Template} (h : ∀ t ∈ templates, t.name ∈ lib.names) :
    (addAll policy templates lib).1.names = lib.names := by
  induction templates generalizing lib with
  | nil => rfl
  | cons t rest ih =>
    obtain ⟨ht, hrest⟩ := List.forall_mem_cons.1 h
    rw [addAll]
    rcases hadd : lib.add t policy with e | next
    · rfl
    · have hnext : next.names = lib.names := by rw [names_add hadd, if_pos ht]
      rw [← hnext]
      exact ih (hnext ▸ hrest)

section

variable (h : policy ≠ .error) (templates : List Template) (lib : Library)

include h

theorem taken_of_addAll : ∀ t ∈ templates, t.name ∈ (addAll policy templates lib).1.names := by
  intro t ht
  exact mem_names_of_addAll (addAll_ok h templates lib) ht

/-- every name leads where it led after the first time -/
theorem find?_addAll_again :
    (addAll policy templates (addAll policy templates lib).1).1.find? = (addAll policy templates lib).1.find? := by
  funext name
  cases policy with
  | error => exact absurd rfl h
  | overwrite => rw [find?_addAll_overwrite, find?_addAll_overwrite, ← Option.or_assoc, Option.or_self]
  | ignore => rw [find?_addAll_ignore, find?_addAll_ignore, Option.or_assoc, Option.or_self]

/-- added a second time, templates change nothing -/
theorem addAll_again :
    addAll policy templates (addAll policy templates lib).1 = ((addAll policy templates lib).1, .ok ()) := by
  have hnames : (addAll policy templates (addAll policy templates lib).1).1.names =
      (addAll policy templates lib).1.names := names_addAll_of_taken (taken_of_addAll h templates lib)
  have hsame : (addAll policy templates (addAll policy templates lib).1).1 = (addAll policy templates lib).1 := by
    apply eq_of_catalogue
    rw [catalogue, catalogue, hnames, find?_addAll_again h]
  exact (addAll_ok h templates _).trans (by rw [hsame])

end

/-! ## Parses and merges -/

/-- **A load that is repeated changes nothing.** Unless taken names are an error, a text that is parsed a second time
leaves the library as the first parse left it, and ends as that did: with no error, or with the same block that is not
closed. A library that is merged a second time is merged without an error and leaves all as it was, and a library that
is merged into itself does so the first time. -/
theorem reload_unchanged (h : policy ≠ .error) :
    (∀ (lib : Library) (input : String), (lib.parse input policy).1.parse input policy = lib.parse input policy ∧
      ((lib.parse input policy).2 = .ok () ∨
        ∃ name line, (lib.parse input policy).2 = .error (.unterminatedTemplate name line))) ∧
    (∀ lib other : Library, (lib.merge other policy).1.merge other policy = ((lib.merge other policy).1, .ok ())) ∧
    ∀ lib : Library, lib.merge lib policy = (lib, .ok ()) := by
  refine ⟨fun lib input => ?_, fun lib other => addAll_again h other.templates lib, fun lib => ?_⟩
  · rw [parse_of_ne_error h, parse_of_ne_error h, addAll_again h]
    exact ⟨rfl, Markup.Layout.outcome_cases _⟩
  · have hself := addAll_again h lib.templates empty
    rwa [addAll_templates] at hself

/-- a text whose block of `a` changes twice, with a block of `b` that is not closed at its end -/
theorem reload_unchanged_repeated :
    Policy.overwrite ≠ .error ∧
      (oneBlock.parse repeatedText .overwrite).1.parse repeatedText .overwrite =
        oneBlock.parse repeatedText .overwrite ∧
      (oneBlock.parse repeatedText .overwrite).2 = .error (.unterminatedTemplate "b" 5) ∧
      (oneBlock.parse repeatedText .overwrite).1.templates.map Template.body = ["<%%STARTTEMPLATE b%%>3", "2"] := by
  have hoverwrites : Policy.overwrite ≠ .error := nofun
  refine ⟨hoverwrites, ((reload_unchanged hoverwrites).1 oneBlock repeatedText).1, ?_⟩
  decide +kernel

end Library

end BlockTemplates
