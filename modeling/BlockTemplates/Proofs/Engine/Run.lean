/-
Runs of an engine: any operations, one after another.

An operation gives the engine it leaves, also when it fails. `Engine.renderAll` and `Renderer.renderAll` are the runs of
which the outcomes matter: renders in sequence. `library_subset_apply` says which operations keep every template that is
there: all but those that overwrite.
-/
import BlockTemplates.Engine.Basic
import BlockTemplates.Proofs.Engine.Rendering
import BlockTemplates.Proofs.Library.Growth

namespace BlockTemplates

/-! ## Renders in sequence -/

/-- renders one after another, with the outcome of each -/
def Engine.renderAll (engine : Engine) : List (String × Slots) → Engine × List (Except Error String)
  | [] => (engine, [])
  | (name, slots) :: calls =>
    let (engine, result) := engine.render name slots
    let (engine, results) := engine.renderAll calls
    (engine, result :: results)

/-- renders of one renderer, one after another, with the outcome of each -/
def Renderer.renderAll (r : Renderer) : List (String × Slots) → Renderer × List (Except Error String)
  | [] => (r, [])
  | (name, slots) :: calls =>
    let (r, result) := r.render name slots
    let (r, results) := r.renderAll calls
    (r, result :: results)

/-! ## Operations -/

/-- what can be done with an engine -/
inductive Operation where
  | parse (input : String) (policy : Policy)
  | add (t : Template) (policy : Policy)
  | merge (other : Library) (policy : Policy)
  | render (name : String) (slots : Slots)
  /-- a template that need not be in the library -/
  | renderTemplate (t : Template) (slots : Slots)
  /-- renders of one renderer -/
  | renderer (calls : List (String × Slots))
  | clearCache

namespace Operation

/-- the engine an operation leaves, whether it fails or not -/
def apply (engine : Engine) : Operation → Engine
  | parse input policy => (engine.parse input policy).1
  | add t policy => (engine.add t policy).1
  | merge other policy => (engine.merge other policy).1
  | render name slots => (engine.render name slots).1
  | renderTemplate t slots => (engine.renderTemplate t slots).1
  | renderer calls => ((Renderer.ofEngine engine).renderAll calls).1.engine
  | clearCache => engine.clearCache

/-- the library an operation leaves -/
def change (lib : Library) : Operation → Library
  | parse input policy => (lib.parse input policy).1
  | add t policy => (lib.add t policy).toOption.getD lib
  | merge other policy => (lib.merge other policy).1
  | _ => lib

def overwrites : Operation → Bool
  | parse _ policy => policy == .overwrite
  | add _ policy => policy == .overwrite
  | merge _ policy => policy == .overwrite
  | _ => false

end Operation

namespace Engine

def run (engine : Engine) (ops : List Operation) : Engine :=
  ops.foldl Operation.apply engine

theorem run_cons (engine : Engine) (op : Operation) (ops : List Operation) :
    engine.run (op :: ops) = (op.apply engine).run ops := rfl

/-- every operation that replaces a template by another is followed by a clearing of the cache -/
def Undisturbed (engine : Engine) : List Operation → Prop
  | [] => True
  | op :: ops =>
    (engine.library.Subset (op.apply engine).library ∨ .clearCache ∈ ops) ∧ Undisturbed (op.apply engine) ops

end Engine

/-! ## What an operation does to the library -/

theorem Renderer.library_renderAll (r : Renderer) (calls : List (String × Slots)) :
    (r.renderAll calls).1.engine.library = r.engine.library := by
  induction calls generalizing r with
  | nil => rfl
  | cons call calls ih => exact ih (r.render call.1 call.2).1

/-- the cache has no part in what an operation does to the library -/
theorem Operation.library_apply (engine : Engine) (op : Operation) :
    (op.apply engine).library = op.change engine.library := by
  cases op with
  | add t policy =>
    simp only [apply, change, Engine.add]
    rcases engine.library.add t policy with e | lib <;> rfl
  | renderer calls => exact (Renderer.ofEngine engine).library_renderAll calls
  | _ => rfl

theorem Engine.library_run (engine : Engine) (ops : List Operation) :
    (engine.run ops).library = ops.foldl Operation.change engine.library := by
  induction ops generalizing engine with
  | nil => rfl
  | cons op ops ih => rw [run_cons, ih, op.library_apply, List.foldl_cons]

/-- an operation that does not overwrite keeps every template, also if it fails -/
theorem Operation.subset_change {op : Operation} (h : op.overwrites = false) (lib : Library) :
    lib.Subset (op.change lib) := by
  cases op with
  | parse input policy => exact (Library.grows_subset (ne_of_beq_false h)).parse lib input
  | add t policy =>
    simp only [change]
    rcases hadd : lib.add t policy with e | lib'
    · exact Library.Subset.refl lib
    · exact Library.subset_add (ne_of_beq_false h) hadd
  | merge other policy => exact (Library.grows_subset (ne_of_beq_false h)).merge lib other
  | _ => exact Library.Subset.refl lib

theorem Operation.library_subset_apply {op : Operation} (h : op.overwrites = false) (engine : Engine) :
    engine.library.Subset (op.apply engine).library := by
  rw [op.library_apply]
  exact subset_change h engine.library

/-- no operation drops a name -/
theorem Operation.names_prefix_change (op : Operation) (lib : Library) : lib.names <+: (op.change lib).names := by
  cases op with
  | parse input policy => exact (Library.grows_names policy).parse lib input
  | add t policy =>
    simp only [change]
    rcases hadd : lib.add t policy with e | lib'
    · exact List.prefix_refl lib.names
    · exact Library.names_prefix_add hadd
  | merge other policy => exact (Library.grows_names policy).merge lib other
  | _ => exact List.prefix_refl lib.names

theorem Engine.names_prefix_run (engine : Engine) (ops : List Operation) :
    engine.library.names <+: (engine.run ops).library.names := by
  induction ops generalizing engine with
  | nil => exact List.prefix_refl _
  | cons op ops ih =>
    have hop := op.names_prefix_change engine.library
    rw [← op.library_apply] at hop
    exact hop.trans (ih (op.apply engine))

/-! ## What an operation does to the cache -/

theorem Engine.cache_add (engine : Engine) (t : Template) (policy : Policy) :
    (engine.add t policy).1.cache = engine.cache := by
  unfold add
  split <;> rfl

section Follows

variable {F : Cache → Cache → Prop} (hF : Cache.Counting F)
  (hrender : ∀ (lib : Library) chain name slots, (lib.renderWithin chain name slots).Follows F)

include hF hrender

theorem Library.follows_renderSegments (lib : Library) (chain : List String) (slots : Slots)
    (segments : List Segment) :
    (renderSegments (lib.renderWithin chain) slots segments : Rendering String).Follows F :=
  renderSegments_related (g := lib.renderWithin chain) (Rendering.sequential_follows hF) segments
    (fun n _ s => hrender lib chain n s) slots

theorem Renderer.follows_renderAll (r : Renderer) (calls : List (String × Slots)) :
    F r.engine.cache (r.renderAll calls).1.engine.cache := by
  induction calls generalizing r with
  | nil => exact hF.refl _
  | cons call calls ih =>
    have hfirst := hrender r.engine.library r.chain call.1 call.2 r.engine.cache
    exact hF.trans hfirst (ih (r.render call.1 call.2).1)

/-- an operation that does not clear the cache leaves one that is related to the one before, as its renders do -/
theorem Operation.follows_apply {op : Operation} (h : op ≠ .clearCache) (engine : Engine) :
    F engine.cache (op.apply engine).cache := by
  cases op with
  | parse input policy => exact hF.refl _
  | add t policy =>
    rw [apply, Engine.cache_add]
    exact hF.refl _
  | merge other policy => exact hF.refl _
  | render name slots => exact hrender engine.library [] name slots engine.cache
  | renderTemplate t slots =>
    exact engine.library.follows_renderSegments hF hrender [] slots t.segments engine.cache
  | renderer calls => exact Renderer.follows_renderAll hF hrender (.ofEngine engine) calls
  | clearCache => exact absurd rfl h

end Follows

end BlockTemplates
