/-
Rendering without a cache, and the graph of invocations.

`Library.renderPlain` is the recursion of `renderWithin` with no cache in it. Whether it succeeds is a matter of the
names that can be reached by invocations, not of the chain as such:
- `renderPlain_ok_reaches`: a name that is rendered reaches no name of its chain, and does not reach itself.
- `renderPlain_ok_of_subset`: such a render gives the same text below any other chain that the name does not reach, and
  in any library that has all templates of the first.
- `renderPlain_ok_of_above`: so it gives the same text below a chain of names that reach it, as chains of renders are.
-/
import BlockTemplates.Engine.Render
import BlockTemplates.Proofs.Library.Growth
import BlockTemplates.Proofs.Template.Rendering
import Mathlib.Logic.Relation

namespace BlockTemplates

namespace Library

/-! ## Invocations -/

/-- the template `x` is in the library and invokes `y` -/
def Invokes (lib : Library) (x y : String) : Prop :=
  ∃ t, lib.find? x = some t ∧ y ∈ t.dependencies

/-- `y` is `x` or is reached from it by invocations -/
def Reaches (lib : Library) : String → String → Prop :=
  Relation.ReflTransGen lib.Invokes

/-- `y` is reached from `x` by at least one invocation -/
def ReachesBelow (lib : Library) : String → String → Prop :=
  Relation.TransGen lib.Invokes

theorem reachesBelow_iff {lib : Library} {x z : String} {t : Template} (h : lib.find? x = some t) :
    lib.ReachesBelow x z ↔ ∃ y ∈ t.dependencies, lib.Reaches y z := by
  rw [ReachesBelow, Relation.TransGen.head'_iff]
  constructor
  · rintro ⟨y, ⟨t', h', hy⟩, hz⟩
    obtain rfl : t = t' := Option.some.inj (h.symm.trans h')
    exact ⟨y, hy, hz⟩
  · rintro ⟨y, hy, hz⟩
    exact ⟨y, ⟨t, h, hy⟩, hz⟩

/-! ## The reference -/

/-- renders the template `name` while the names of `chain` are being rendered, keeping nothing -/
def renderPlain (lib : Library) (chain : List String) (name : String) (slots : Slots) : Except Error String :=
  match _found : lib.find? name with
  | none => .error (.missingTemplate name)
  | some t =>
    if _active : name ∈ chain then .error (.renderCycle name (chain ++ [name]))
    else
      match slots.checkFinite with
      | .error e => .error e
      | .ok () => t.render (fun n s => renderPlain lib (chain ++ [name]) n s) slots
termination_by lib.idle chain
decreasing_by exact idle_append_lt (mem_names_of_find? _found) _active

variable {lib : Library} {chain : List String} {name : String} {slots : Slots} {t : Template}

theorem renderPlain_missing (h : lib.find? name = none) :
    lib.renderPlain chain name slots = .error (.missingTemplate name) := by
  rw [renderPlain]
  split
  · rfl
  · simp_all

theorem renderPlain_active (h : lib.find? name = some t) (hmem : name ∈ chain) :
    lib.renderPlain chain name slots = .error (.renderCycle name (chain ++ [name])) := by
  rw [renderPlain]
  split
  · simp_all
  · rw [dif_pos hmem]

theorem renderPlain_invalid (h : lib.find? name = some t) (hmem : name ∉ chain) {e : Error}
    (hslots : slots.checkFinite = .error e) : lib.renderPlain chain name slots = .error e := by
  rw [renderPlain]
  split
  · simp_all
  · rw [dif_neg hmem, hslots]

theorem renderPlain_valid (h : lib.find? name = some t) (hmem : name ∉ chain)
    (hslots : slots.checkFinite = .ok ()) :
    lib.renderPlain chain name slots = t.render (lib.renderPlain (chain ++ [name])) slots := by
  rw [renderPlain]
  split
  · simp_all
  · next t' h' =>
    obtain rfl : t = t' := Option.some.inj (h.symm.trans h')
    rw [dif_neg hmem, hslots]

/-- what a successful render has done -/
theorem renderPlain_ok_cases {output : String} (h : lib.renderPlain chain name slots = .ok output) :
    ∃ t, lib.find? name = some t ∧ name ∉ chain ∧ slots.checkFinite = .ok () ∧
      t.render (lib.renderPlain (chain ++ [name])) slots = .ok output := by
  rcases hfind : lib.find? name with _ | t
  · rw [renderPlain_missing hfind] at h
    cases h
  · by_cases hmem : name ∈ chain
    · rw [renderPlain_active hfind hmem] at h
      cases h
    · rcases hslots : slots.checkFinite with e | ⟨⟨⟩⟩
      · rw [renderPlain_invalid hfind hmem hslots] at h
        cases h
      · rw [renderPlain_valid hfind hmem hslots] at h
        exact ⟨t, rfl, hmem, rfl, h⟩

/-! ## What success says about the graph -/

/-- a name that is rendered does not reach the names above it -/
theorem renderPlain_ok_reaches {output : String} (h : lib.renderPlain chain name slots = .ok output) {y : String}
    (hy : lib.Reaches name y) : y ∉ chain := by
  induction chain, name, slots using renderPlain.induct lib generalizing output y with
  | case1 chain name slots hfind =>
    rw [renderPlain_missing hfind] at h
    cases h
  | case2 chain name slots t hfind hmem =>
    rw [renderPlain_active hfind hmem] at h
    cases h
  | case3 chain name slots t hfind hmem e hslots =>
    rw [renderPlain_invalid hfind hmem hslots] at h
    cases h
  | case4 chain name slots t hfind hmem hslots ih =>
    rw [renderPlain_valid hfind hmem hslots] at h
    rcases Relation.reflTransGen_iff_eq_or_transGen.1 hy with rfl | hbelow
    · exact hmem
    · obtain ⟨n, hn, hny⟩ := (reachesBelow_iff hfind).1 hbelow
      obtain ⟨s, o, ho⟩ := Template.nested_ok_of_render_ok h n hn
      exact fun hmem' => ih n s ho hny (List.mem_append_left _ hmem')

/-- a name that is rendered does not reach itself -/
theorem not_reachesBelow_of_renderPlain_ok {output : String} (h : lib.renderPlain chain name slots = .ok output) :
    ¬ lib.ReachesBelow name name := by
  obtain ⟨t, hfind, -, -, hrender⟩ := renderPlain_ok_cases h
  intro hself
  obtain ⟨n, hn, hback⟩ := (reachesBelow_iff hfind).1 hself
  obtain ⟨s, o, ho⟩ := Template.nested_ok_of_render_ok hrender n hn
  exact renderPlain_ok_reaches ho hback (List.mem_append_right _ (List.mem_singleton.2 rfl))

/-! ## Larger libraries and other chains -/

/-- a render that succeeds gives the same text in larger libraries, below every chain that `name` does not reach -/
theorem renderPlain_ok_of_subset {lib' : Library} {chain' : List String} {output : String} (hsub : lib.Subset lib')
    (h : lib.renderPlain chain name slots = .ok output) (hchain : ∀ y, lib.Reaches name y → y ∉ chain') :
    lib'.renderPlain chain' name slots = .ok output := by
  induction chain, name, slots using renderPlain.induct lib generalizing output chain' with
  | case1 chain name slots hfind =>
    rw [renderPlain_missing hfind] at h
    cases h
  | case2 chain name slots t hfind hmem =>
    rw [renderPlain_active hfind hmem] at h
    cases h
  | case3 chain name slots t hfind hmem e hslots =>
    rw [renderPlain_invalid hfind hmem hslots] at h
    cases h
  | case4 chain name slots t hfind hmem hslots ih =>
    have hself := not_reachesBelow_of_renderPlain_ok h
    rw [renderPlain_valid hfind hmem hslots] at h
    rw [renderPlain_valid (hsub.find? hfind) (hchain name .refl) hslots]
    refine Template.render_related sequential_ok t ?_ slots output h
    intro n hn s o ho
    refine ih n s ho fun y hy => ?_
    -- a dependency reaches nothing of the chain, and not `name`, which would then reach itself
    have hbelow : lib.ReachesBelow name y := (reachesBelow_iff hfind).2 ⟨n, hn, hy⟩
    rw [List.mem_append, List.mem_singleton]
    rintro (hmem' | rfl)
    · exact hchain y hbelow.to_reflTransGen hmem'
    · exact hself hbelow

/-! ## Chains that reach what is rendered -/

/-- what is put on a chain that reaches it reaches what it invokes, as the names above it do -/
theorem reachesBelow_of_mem_chain {n : String} (hchain : ∀ x ∈ chain, lib.ReachesBelow x name)
    (h : lib.Invokes name n) : ∀ x ∈ chain ++ [name], lib.ReachesBelow x n := by
  intro x hx
  rcases List.mem_append.1 hx with hx | hx
  · exact (hchain x hx).tail h
  · rw [List.mem_singleton.1 hx]
    exact .single h

/-- below a chain that reaches the name, a render succeeds if it succeeds above everything, with the same text -/
theorem renderPlain_ok_of_above {output : String} (hchain : ∀ x ∈ chain, lib.ReachesBelow x name)
    (h : lib.renderPlain [] name slots = .ok output) : lib.renderPlain chain name slots = .ok output := by
  refine renderPlain_ok_of_subset (Subset.refl lib) h fun y hy hmem => ?_
  -- were `y` on the chain and reached, `name` would reach itself through it
  exact not_reachesBelow_of_renderPlain_ok h (Relation.TransGen.trans_right hy (hchain y hmem))

end Library

end BlockTemplates
