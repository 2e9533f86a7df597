/-
The blocks of a text, read off the whole text.

`layout` looks at no lines: it cuts the text at the leftmost start marker, then at the leftmost end marker of the same
name behind it, and goes on behind the newline that follows. `store` adds the blocks to a library in order. The library
and the policy have no part in `layout`: which text forms a block does not depend on what is done with the block.
-/
import BlockTemplates.Markup.Scan
import BlockTemplates.Proofs.Library.Addition
import BlockTemplates.Proofs.Markup.Marker

namespace BlockTemplates

namespace Markup

/-! ## Layouts -/

structure Block where
  name : List Char
  body : List Char
  /-- the line of the start marker -/
  line : Nat
  validName : isNameText name = true

def Block.template (block : Block) : Template :=
  ⟨String.ofList block.name, String.ofList block.body, by rw [isTemplateName, String.toList_ofList, block.validName]⟩

/-- the body of a block: the text between its markers, without a blank first line if there are others -/
def bodyOf (inside : List Char) : List Char :=
  if '\n' ∈ inside ∧ (Text.firstLine inside).all Text.isBlank = true then Text.nextLines inside else inside

/-- the blocks of a text, and what it ends in the middle of -/
structure Layout where
  blocks : List Block
  /-- the name and the line of a start marker whose end marker is missing -/
  tail : Option (List Char × Nat)

/-- the blocks of a text whose first line is line `number` -/
def layout (number : Nat) (text : List Char) : Layout :=
  match hstart : Marker.cutStart? text with
  | none => ⟨[], none⟩
  | some (before, name, rest) =>
    match hstop : Text.cut? (Marker.stop name) rest with
    | none => ⟨[], some (name, number + before.count '\n')⟩
    | some (inside, after) =>
      let line := number + before.count '\n'
      let next := layout (line + inside.count '\n' + 1) (Text.nextLines after)
      ⟨⟨name, bodyOf inside, line, (Marker.cutStart?_eq_some hstart).1⟩ :: next.blocks, next.tail⟩
termination_by text.length
decreasing_by
  have hrest := Marker.length_lt_of_cutStart? hstart
  have hafter := Text.length_after_le_of_cut? hstop
  have hnext := Text.length_nextLines_le after
  omega

/-! ## Adding the blocks -/

/-- adds blocks in order, up to the first whose name is taken under `Policy.error` -/
def storeBlocks (policy : Policy) : List Block → Library → Library × Except Error Unit
  | [], lib => (lib, .ok ())
  | block :: rest, lib =>
    match lib.add block.template policy with
    | .ok lib => storeBlocks policy rest lib
    | .error _ => (lib, .error (.duplicateTemplate block.template.name (some block.line)))

/-- the error of a text that ends in the middle of a block -/
def tailError (policy : Policy) (lib : Library) (name : List Char) (line : Nat) : Error :=
  if policy = .error ∧ String.ofList name ∈ lib.names then .duplicateTemplate (String.ofList name) (some line)
  else .unterminatedTemplate (String.ofList name) line

/-- adds the blocks of a layout; what the text ends in the middle of is an error then -/
def store (policy : Policy) (found : Layout) (lib : Library) : Library × Except Error Unit :=
  match storeBlocks policy found.blocks lib, found.tail with
  | (lib, .ok ()), some (name, line) => (lib, .error (tailError policy lib name line))
  | outcome, _ => outcome

theorem store_cons (policy : Policy) (block : Block) (found : Layout) (lib : Library) :
    store policy ⟨block :: found.blocks, found.tail⟩ lib =
      match lib.add block.template policy with
      | .ok lib => store policy found lib
      | .error _ => (lib, .error (.duplicateTemplate block.template.name (some block.line))) := by
  simp only [store, storeBlocks]
  rcases lib.add block.template policy with e | lib' <;> rfl

/-- the blocks of a text are added like templates; only the errors have a line -/
theorem fst_storeBlocks (policy : Policy) (blocks : List Block) (lib : Library) :
    (storeBlocks policy blocks lib).1 = (Library.addAll policy (blocks.map Block.template) lib).1 := by
  induction blocks generalizing lib with
  | nil => rfl
  | cons block rest ih =>
    simp only [storeBlocks, List.map_cons, Library.addAll]
    rcases lib.add block.template policy with e | lib'
    · rfl
    · exact ih lib'

theorem storeBlocks_of_addAll_ok {policy : Policy} {blocks : List Block} {lib lib' : Library}
    (h : Library.addAll policy (blocks.map Block.template) lib = (lib', .ok ())) :
    storeBlocks policy blocks lib = (lib', .ok ()) := by
  induction blocks generalizing lib with
  | nil => exact h
  | cons block rest ih =>
    simp only [storeBlocks, List.map_cons, Library.addAll] at h ⊢
    rcases hadd : lib.add block.template policy with e | added
    · rw [hadd] at h
      cases h
    · rw [hadd] at h
      exact ih h

theorem fst_store (policy : Policy) (found : Layout) (lib : Library) :
    (store policy found lib).1 = (storeBlocks policy found.blocks lib).1 := by
  unfold store
  split <;> simp_all

/-! ## The three cases of a layout -/

theorem layout_of_no_start {text : List Char} (h : Marker.cutStart? text = none) (number : Nat) :
    layout number text = ⟨[], none⟩ := by
  rw [layout]
  split
  · rfl
  · simp_all

theorem layout_of_tail {text before name rest : List Char} (hstart : Marker.cutStart? text = some (before, name, rest))
    (hstop : Text.cut? (Marker.stop name) rest = none) (number : Nat) :
    layout number text = ⟨[], some (name, number + before.count '\n')⟩ := by
  rw [layout]
  split
  · simp_all
  · next h =>
    cases hstart.symm.trans h
    split
    · rfl
    · simp_all

theorem layout_of_block {text before name rest inside after : List Char}
    (hstart : Marker.cutStart? text = some (before, name, rest))
    (hstop : Text.cut? (Marker.stop name) rest = some (inside, after)) (number : Nat) :
    layout number text =
      let line := number + before.count '\n'
      let next := layout (line + inside.count '\n' + 1) (Text.nextLines after)
      ⟨⟨name, bodyOf inside, line, (Marker.cutStart?_eq_some hstart).1⟩ :: next.blocks, next.tail⟩ := by
  rw [layout]
  split
  · simp_all
  · next h =>
    cases hstart.symm.trans h
    split
    · simp_all
    · next h' =>
      cases hstop.symm.trans h'
      rfl

/-! ## Bodies -/

theorem bodyOf_line {inside : List Char} (h : '\n' ∉ inside) : bodyOf inside = inside :=
  if_neg fun hand => h hand.1

theorem bodyOf_lines {first : List Char} (h : '\n' ∉ first) (inside : List Char) :
    bodyOf (first ++ '\n' :: inside) =
      if first.all Text.isBlank = true then inside else first ++ '\n' :: inside := by
  have hmem : '\n' ∈ first ++ '\n' :: inside := List.mem_append_right first List.mem_cons_self
  rw [bodyOf, Text.firstLine_line h, Text.nextLines_line h]
  simp only [hmem, true_and]

theorem bodyOf_suffix (inside : List Char) : bodyOf inside <:+ inside := by
  unfold bodyOf
  split
  · exact (List.tail_suffix _).trans (List.dropWhile_suffix _)
  · exact List.suffix_refl inside

end Markup

end BlockTemplates
