/-
How deep renders are nested.

At every moment of a render from the top, the chain is the list of the names of the templates that are being rendered;
they are different names of the library (`Moment.Nested`, `nested_of_steps`). So at most as many templates are being
rendered as there are in the library, whatever they invoke. With the end that every render comes to, this is
`render_ends`.
-/
import BlockTemplates.Proofs.Engine.Machine
import Mathlib.Data.List.Nodup
import Mathlib.Data.List.Perm.Subperm

namespace BlockTemplates

/-- the chain is made of the names of the templates that are being rendered, all different and in the library -/
structure Moment.Nested (lib : Library) (m : Moment) : Prop where
  chain_eq : m.chain = (m.frames.map Frame.name).reverse
  nodup : m.chain.Nodup
  subset : ∀ n ∈ m.chain, n ∈ lib.names

namespace Moment

variable {lib : Library} {m m' : Moment}

theorem nested_start (lib : Library) (name : String) (slots : Slots) (cache : Cache) :
    (start [] name slots cache).Nested lib :=
  ⟨rfl, .nil, fun _ hn => nomatch hn⟩

/-- a step changes nothing about the chain, or puts a name of the library on it that is not there, or takes off the name
of the innermost template -/
theorem Nested.step (h : m.Nested lib) (hstep : lib.Step m m') : m'.Nested lib := by
  obtain ⟨hchain, hnodup, hsubset⟩ := h
  have hpop : ∀ {frame : Frame} {frames : List Frame} {chain : List String} {cache : Cache} {control : Control},
      chain = ((frame :: frames).map Frame.name).reverse → chain.Nodup → (∀ n ∈ chain, n ∈ lib.names) →
        Nested lib ⟨frames, chain.dropLast, cache, control⟩ := by
    intro frame frames chain cache control hchain hnodup hsubset
    have hsub := List.dropLast_sublist chain
    refine ⟨?_, hnodup.sublist hsub, fun n hn => hsubset n (hsub.mem hn)⟩
    rw [hchain, List.map_cons, List.reverse_cons, List.dropLast_concat]
  cases hstep with
  | miss hfind hmem hkey hstored =>
    refine ⟨?_, ?_, ?_⟩
    · rw [List.map_cons, List.reverse_cons, ← hchain]
    · refine List.nodup_append.2 ⟨hnodup, List.nodup_singleton _, ?_⟩
      rintro a ha b hb rfl
      rw [List.mem_singleton.1 hb] at ha
      exact hmem ha
    · intro n hn
      rcases List.mem_append.1 hn with hn | hn
      · exact hsubset n hn
      · rw [List.mem_singleton.1 hn]
        exact Library.mem_names_of_find? hfind
  | fail => exact hpop hchain hnodup hsubset
  | finish => exact hpop hchain hnodup hsubset
  | _ => exact ⟨hchain, hnodup, hsubset⟩

theorem nested_of_steps (h : m.Nested lib) (hsteps : lib.Steps m m') : m'.Nested lib := by
  induction hsteps with
  | refl => exact h
  | tail _ hstep ih => exact ih.step hstep

theorem Nested.length_frames (h : m.Nested lib) : m.frames.length = m.chain.length := by
  rw [h.chain_eq, List.length_reverse, List.length_map]

theorem Nested.length_chain_le (h : m.Nested lib) : m.chain.length ≤ lib.size := by
  have hle : m.chain.length ≤ lib.names.length := (h.nodup.subperm h.subset).length_le
  rwa [Library.names, List.length_map] at hle

end Moment

/-- **Renders end, and nest no deeper than the library is large.** Whatever the templates invoke and whatever is in the
cache, a render, below any chain, takes only finitely many steps; at their end the chain is what it was and the outcome
and the cache are those of `renderWithin`. At every moment of a render from the top, the templates that are being
rendered have different names, the names on the chain, all of the library; so there are at most as many as the library
has templates. -/
theorem Library.render_ends (lib : Library) (name : String) (slots : Slots) (cache : Cache) :
    (∀ chain, Acc (fun m' m => lib.Step m m') (.start chain name slots cache) ∧
      ∃ result cache', lib.Steps (.start chain name slots cache) ⟨[], chain, cache', .back name slots result⟩ ∧
        (lib.renderWithin chain name slots).on cache = (result, cache')) ∧
    ∀ m, lib.Steps (.start [] name slots cache) m →
      m.chain.Nodup ∧ (∀ n ∈ m.chain, n ∈ lib.names) ∧ m.chain = (m.frames.map Frame.name).reverse ∧
        m.frames.length ≤ lib.size := by
  constructor
  · intro chain
    exact ⟨Moment.acc_start lib chain name slots cache, _, _, Moment.steps_ended lib chain name slots cache, rfl⟩
  · intro m hm
    have hnested := Moment.nested_of_steps (Moment.nested_start lib name slots cache) hm
    refine ⟨hnested.nodup, hnested.subset, hnested.chain_eq, ?_⟩
    rw [hnested.length_frames]
    exact hnested.length_chain_le

end BlockTemplates
