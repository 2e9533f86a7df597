/-
What a parse leaves, read off the layout of the text.

A parse succeeds exactly if the last block of the text is closed and the templates of all blocks can be added, and it
leaves what these additions leave (`parse_eq_ok_iff`). Under the policies that refuse no template, all blocks are added
and only the text decides how the parse ends (`parse_of_ne_error`).
-/
import BlockTemplates.Proofs.Library.Merging
import BlockTemplates.Proofs.Markup.Scan

namespace BlockTemplates

namespace Markup

theorem storeBlocks_eq_ok_iff {policy : Policy} {blocks : List Block} {lib lib' : Library} :
    storeBlocks policy blocks lib = (lib', .ok ()) ↔
      Library.addAll policy (blocks.map Block.template) lib = (lib', .ok ()) := by
  refine ⟨fun h => ?_, storeBlocks_of_addAll_ok⟩
  induction blocks generalizing lib with
  | nil => exact h
  | cons block rest ih =>
    rw [storeBlocks] at h
    rcases hadd : lib.add block.template policy with e | next
    · rw [hadd] at h
      cases h
    · rw [hadd] at h
      exact Library.addAll_cons_ok_iff.2 ⟨next, hadd, ih h⟩

theorem store_eq_ok_iff {policy : Policy} {found : Layout} {lib lib' : Library} :
    store policy found lib = (lib', .ok ()) ↔
      found.tail = none ∧ Library.addAll policy (found.blocks.map Block.template) lib = (lib', .ok ()) := by
  rw [← storeBlocks_eq_ok_iff, store]
  rcases storeBlocks policy found.blocks lib with ⟨stored, e | ⟨⟨⟩⟩⟩ <;>
    rcases found.tail with _ | ⟨name, line⟩ <;> simp

end Markup

theorem Library.parse_eq_ok_iff {policy : Policy} {input : String} {lib lib' : Library} :
    lib.parse input policy = (lib', .ok ()) ↔
      (Markup.layout 1 input.toList).tail = none ∧
        addAll policy ((Markup.layout 1 input.toList).blocks.map Markup.Block.template) lib = (lib', .ok ()) := by
  rw [parse, Markup.scanLines_eq_store, Markup.store_eq_ok_iff]

/-! ## Policies that refuse nothing -/

namespace Markup

/-- how a text ends: behind its last block or in the middle of one -/
def Layout.outcome (found : Layout) : Except Error Unit :=
  match found.tail with
  | none => .ok ()
  | some (name, line) => .error (.unterminatedTemplate (String.ofList name) line)

theorem Layout.outcome_cases (found : Layout) :
    found.outcome = .ok () ∨ ∃ name line, found.outcome = .error (.unterminatedTemplate name line) := by
  unfold outcome
  split
  · exact .inl rfl
  · exact .inr ⟨_, _, rfl⟩

theorem store_of_ne_error {policy : Policy} (h : policy ≠ .error) (found : Layout) (lib : Library) :
    store policy found lib = ((Library.addAll policy (found.blocks.map Block.template) lib).1, found.outcome) := by
  obtain ⟨lib', hadd⟩ := Library.exists_addAll h (found.blocks.map Block.template) lib
  rw [store, storeBlocks_of_addAll_ok hadd, hadd, Layout.outcome]
  rcases found.tail with _ | ⟨name, line⟩
  · rfl
  · have hrefused : ¬ (policy = .error ∧ String.ofList name ∈ lib'.names) := fun hand => h hand.1
    simp only [tailError, if_neg hrefused]

end Markup

/-- unless taken names are an error, all blocks are added and the text alone decides on the outcome -/
theorem Library.parse_of_ne_error {policy : Policy} (h : policy ≠ .error) (lib : Library) (input : String) :
    lib.parse input policy =
      ((addAll policy ((Markup.layout 1 input.toList).blocks.map Markup.Block.template) lib).1,
        (Markup.layout 1 input.toList).outcome) := by
  rw [parse, Markup.scanLines_eq_store, Markup.store_of_ne_error h]

end BlockTemplates
