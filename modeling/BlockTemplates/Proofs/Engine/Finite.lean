/-
Renders of finite slots.

An invocation passes on slots or a part of them, so where a render begins with finite slots, all slots are finite at
every moment of it, at whatever depth and whatever is in the cache (`Moment.Finite.step`). So the slots of no nested
render are refused, and a render fails only with a name that is missing or is being rendered already
(`render_error_of_finite`).
-/
import BlockTemplates.Engine.Basic
import BlockTemplates.Proofs.Engine.Fingerprint
import BlockTemplates.Proofs.Engine.Machine

namespace BlockTemplates

/-- a name is not in the library, or it is being rendered already -/
def Error.IsAboutNames (e : Error) : Prop :=
  (∃ name, e = .missingTemplate name) ∨ ∃ name chain, e = .renderCycle name chain

/-- the slots of what a render is about to do are finite, and an error that it comes back with is about names -/
def Control.Finite : Control → Prop
  | .call _ slots => slots.Finite
  | .write => True
  | .back _ _ (.ok _) => True
  | .back _ _ (.error e) => e.IsAboutNames

/-- the slots of all templates that are being rendered are finite, and so is what happens next -/
structure Moment.Finite (m : Moment) : Prop where
  frames : ∀ frame ∈ m.frames, frame.slots.Finite
  control : m.control.Finite

namespace Moment

variable {lib : Library} {m m' : Moment}

theorem finite_start {slots : Slots} (h : slots.Finite) (chain : List String) (name : String) (cache : Cache) :
    (start chain name slots cache).Finite :=
  ⟨nofun, h⟩

/-- a template that is written on keeps its slots -/
theorem forall_finite_of_slots_eq {frame frame' : Frame} {frames : List Frame}
    (h : ∀ f ∈ frame :: frames, f.slots.Finite) (hslots : frame'.slots = frame.slots) :
    ∀ f ∈ frame' :: frames, f.slots.Finite := by
  obtain ⟨hframe, hframes⟩ := List.forall_mem_cons.1 h
  exact List.forall_mem_cons.2 ⟨hslots ▸ hframe, hframes⟩

theorem Finite.step (h : m.Finite) (hstep : lib.Step m m') : m'.Finite := by
  obtain ⟨hframes, hcontrol⟩ := h
  cases hstep with
  | missing hfind => exact ⟨hframes, .inl ⟨_, rfl⟩⟩
  | active hfind hmem => exact ⟨hframes, .inr ⟨_, _, rfl⟩⟩
  | invalid hfind hmem hkey =>
    -- finite slots have a fingerprint
    rw [Fingerprint.of_finite hcontrol] at hkey
    cases hkey
  | hit hfind hmem hkey hstored => exact ⟨hframes, trivial⟩
  | miss hfind hmem hkey hstored => exact ⟨List.forall_mem_cons.2 ⟨hcontrol, hframes⟩, trivial⟩
  | text => exact ⟨forall_finite_of_slots_eq hframes rfl, trivial⟩
  | slot => exact ⟨forall_finite_of_slots_eq hframes rfl, trivial⟩
  | invoke => exact ⟨forall_finite_of_slots_eq hframes rfl, (List.forall_mem_cons.1 hframes).1.within _⟩
  | resume => exact ⟨forall_finite_of_slots_eq hframes rfl, trivial⟩
  | fail => exact ⟨(List.forall_mem_cons.1 hframes).2, hcontrol⟩
  | finish => exact ⟨(List.forall_mem_cons.1 hframes).2, trivial⟩

theorem Finite.steps (h : m.Finite) (hsteps : lib.Steps m m') : m'.Finite := by
  induction hsteps with
  | refl => exact h
  | tail _ hstep ih => exact ih.step hstep

end Moment

/-- whatever is in the cache, a render of finite slots fails only with an error about names -/
theorem Engine.render_error_of_finite {engine : Engine} {name : String} {slots : Slots} (hslots : slots.Finite)
    {e : Error} (h : (engine.render name slots).2 = .error e) : e.IsAboutNames := by
  have hended := (Moment.finite_start hslots [] name engine.cache).steps
    (Moment.steps_ended engine.library [] name slots engine.cache)
  have hcontrol : Control.Finite (.back name slots (engine.render name slots).2) := hended.control
  rwa [h] at hcontrol

end BlockTemplates
