/-
What a reported cycle says.

The chain is one list that every nested render puts its name on and takes it off again. At every moment of a render from
the top it leads by invocations from the root to the innermost template, and on to the name that this one is about to
invoke (`Moment.Linked`); what earlier invocations have put on it is off again. So the chain a cycle is reported with is
a way from the root to a name that has been passed before: `render_cycle`.
-/
import BlockTemplates.Proofs.Engine.Nesting
import BlockTemplates.Proofs.Engine.Transparency

namespace BlockTemplates

namespace Library

variable {lib : Library} {root name : String} {names : List String}

/-! ## Ways through a library -/

/-- a way through the library: it starts at `root`, and each name invokes the next -/
structure Leads (lib : Library) (root : String) (names : List String) : Prop where
  head : ∀ first ∈ names.head?, first = root
  linked : names.IsChain lib.Invokes

theorem leads_singleton (lib : Library) (root : String) : lib.Leads root [root] where
  head := by
    rintro _ ⟨⟩
    rfl
  linked := .singleton root

theorem Leads.of_prefix {front : List String} (h : lib.Leads root names) (hfront : front <+: names) :
    lib.Leads root front where
  head first hfirst := by
    obtain ⟨rest, rfl⟩ := hfront
    refine h.head first ?_
    rw [List.head?_append, Option.mem_def.1 hfirst]
    rfl
  linked := h.linked.prefix hfront

/-- a way goes on to what its last name invokes -/
theorem Leads.concat {last : String} (h : lib.Leads root (names ++ [last])) (hinvokes : lib.Invokes last name) :
    lib.Leads root (names ++ [last] ++ [name]) where
  head first hfirst := by
    refine h.head first ?_
    rwa [List.head?_append_of_ne_nil _ (List.append_ne_nil_of_right_ne_nil _ (List.cons_ne_nil _ _))] at hfirst
  linked := by
    refine h.linked.append (.singleton name) fun x hx y hy => ?_
    rw [List.getLast?_concat] at hx
    cases hx
    cases hy
    exact hinvokes

/-- the names of a cycle that is met on the way from `root`: the way comes to `name` for the second time -/
structure IsCycle (lib : Library) (root name : String) (chain : List String) : Prop where
  starts : chain.head? = some root
  ends : chain.getLast? = some name
  twice : chain.count name = 2
  /-- no other name is passed twice -/
  others : (chain.filter (· ≠ name)).Nodup
  known : ∀ n ∈ chain, n ∈ lib.names
  /-- each name is a dependency of the template of the name before it -/
  linked : chain.IsChain lib.Invokes

/-- a way without repetition that comes to one of its names -/
theorem isCycle_of_mem (h : lib.Leads root (names ++ [name])) (hnodup : names.Nodup)
    (hknown : ∀ n ∈ names, n ∈ lib.names) (hmem : name ∈ names) : lib.IsCycle root name (names ++ [name]) where
  starts := by
    obtain ⟨first, rest, hnames⟩ := List.exists_cons_of_ne_nil (List.ne_nil_of_mem hmem)
    have hfirst : (names ++ [name]).head? = some first := by rw [hnames]; rfl
    rw [hfirst, h.head first hfirst]
  ends := List.getLast?_concat
  twice := by
    rw [List.count_append, List.count_eq_one_of_mem hnodup hmem, List.count_singleton_self]
  others := by
    have hlast : [name].filter (· ≠ name) = [] := by simp
    rw [List.filter_append, hlast, List.append_nil]
    exact hnodup.filter _
  known n hn := by
    rcases List.mem_append.1 hn with hn | hn
    · exact hknown n hn
    · rw [List.mem_singleton.1 hn]
      exact hknown name hmem
  linked := h.linked

end Library

/-! ## The chain at every moment -/

/-- the name that is about to be rendered, if there is one -/
def Control.called : Control → List String
  | .call name _ => [name]
  | _ => []

/-- the chain leads from `root` to the innermost template, and on to the name that is about to be rendered -/
structure Moment.Linked (lib : Library) (root : String) (m : Moment) : Prop where
  leads : lib.Leads root (m.chain ++ m.control.called)
  /-- what a template is still to invoke is among its dependencies -/
  frames : ∀ f ∈ m.frames, ∀ n ∈ f.rest.filterMap Segment.invoked?, lib.Invokes f.name n
  cycle : ∀ n s name chain, m.control = .back n s (.error (.renderCycle name chain)) → lib.IsCycle root name chain

namespace Moment

variable {lib : Library} {root : String} {m m' : Moment}

theorem linked_start (lib : Library) (root : String) (slots : Slots) (cache : Cache) :
    (start [] root slots cache).Linked lib root :=
  ⟨lib.leads_singleton root, nofun, nofun⟩

/-- a template that is written on has no more to invoke than before -/
theorem forall_invokes_of_rest {frame frame' : Frame} {frames : List Frame}
    (h : ∀ f ∈ frame :: frames, ∀ n ∈ f.rest.filterMap Segment.invoked?, lib.Invokes f.name n)
    (hname : frame'.name = frame.name)
    (hrest : frame'.rest.filterMap Segment.invoked? ⊆ frame.rest.filterMap Segment.invoked?) :
    ∀ f ∈ frame' :: frames, ∀ n ∈ f.rest.filterMap Segment.invoked?, lib.Invokes f.name n := by
  obtain ⟨hframe, hframes⟩ := List.forall_mem_cons.1 h
  refine List.forall_mem_cons.2 ⟨fun n hn => ?_, hframes⟩
  rw [hname]
  exact hframe n (hrest hn)

theorem Linked.step (h : m.Linked lib root) (hnested : m.Nested lib) (hstep : lib.Step m m') :
    m'.Linked lib root := by
  obtain ⟨hleads, hframes, hcycle⟩ := h
  -- where nothing is about to be rendered, the way is the chain itself or a part of it
  have hshorter : ∀ {front : List String}, front <+: m.chain → lib.Leads root (front ++ []) := by
    intro front hfront
    rw [List.append_nil]
    exact hleads.of_prefix (hfront.trans (List.prefix_append _ _))
  cases hstep with
  | missing hfind => exact ⟨hshorter (List.prefix_refl _), hframes, nofun⟩
  | active hfind hmem =>
    refine ⟨hshorter (List.prefix_refl _), hframes, fun n s name' chain' he => ?_⟩
    cases he
    exact Library.isCycle_of_mem hleads hnested.nodup hnested.subset hmem
  | invalid hfind hmem hkey =>
    obtain ⟨slot, rfl⟩ := Fingerprint.exists_slot_of_error hkey
    exact ⟨hshorter (List.prefix_refl _), hframes, nofun⟩
  | hit hfind hmem hkey hstored => exact ⟨hshorter (List.prefix_refl _), hframes, nofun⟩
  | @miss frames chain cache name slots t key hfind hmem hkey hstored =>
    refine ⟨?_, List.forall_mem_cons.2 ⟨fun n hn => ⟨t, hfind, hn⟩, hframes⟩, nofun⟩
    have hon : lib.Leads root (chain ++ [name]) := hleads
    rwa [← List.append_nil (chain ++ [name])] at hon
  | text => exact ⟨hleads, forall_invokes_of_rest hframes rfl (List.Subset.refl _), nofun⟩
  | slot => exact ⟨hleads, forall_invokes_of_rest hframes rfl (List.Subset.refl _), nofun⟩
  | @invoke frames chain cache name slots key n scope rest output =>
    refine ⟨?_, forall_invokes_of_rest hframes rfl (List.subset_cons_self n _), nofun⟩
    have hinvokes : lib.Invokes name n := (List.forall_mem_cons.1 hframes).1 n List.mem_cons_self
    have hchain : chain = (frames.map Frame.name).reverse ++ [name] := by
      have hnames := hnested.chain_eq
      rwa [List.map_cons, List.reverse_cons] at hnames
    have hon := hshorter (List.prefix_refl chain)
    rw [List.append_nil, hchain] at hon
    rw [hchain]
    exact hon.concat hinvokes
  | resume => exact ⟨hleads, forall_invokes_of_rest hframes rfl (List.Subset.refl _), nofun⟩
  | fail =>
    refine ⟨hshorter (List.dropLast_prefix _), (List.forall_mem_cons.1 hframes).2, fun n s name' chain' he => ?_⟩
    cases he
    exact hcycle _ _ _ _ rfl
  | finish => exact ⟨hshorter (List.dropLast_prefix _), (List.forall_mem_cons.1 hframes).2, nofun⟩

theorem linked_of_steps (h : m.Linked lib root) (hnested : m.Nested lib) (hsteps : lib.Steps m m') :
    m'.Linked lib root := by
  induction hsteps with
  | refl => exact h
  | tail hsteps hstep ih => exact ih.step (nested_of_steps hnested hsteps) hstep

end Moment

namespace Engine

/-- **A reported cycle is a cycle.** Whatever is in the cache: if a render from the top fails with a cycle, the reported
names lead by invocations from the name that was to be rendered to one that they have passed before, all of them in the
library, and none but this one passed twice. -/
theorem render_cycle {engine : Engine} {root name : String} {slots : Slots} {chain : List String}
    (h : (engine.render root slots).2 = .error (.renderCycle name chain)) :
    engine.library.IsCycle root name chain := by
  have hended := Moment.steps_ended engine.library [] root slots engine.cache
  have hlinked := Moment.linked_of_steps (Moment.linked_start engine.library root slots engine.cache)
    (Moment.nested_start engine.library root slots engine.cache) hended
  exact hlinked.cycle root slots name chain (congrArg (Control.back root slots) h)

/-- a page that invokes its head, and a body that invokes the head and a list, which invokes the body -/
def windingLibrary : Library :=
  ⟨[⟨"page", "\x7b\x7b> head \x7d\x7d\x7b\x7b> body \x7d\x7d", (by decide : isNameText "page".toList)⟩,
    ⟨"head", "text", (by decide : isNameText "head".toList)⟩,
    ⟨"body", "\x7b\x7b> head \x7d\x7d\x7b\x7b> list \x7d\x7d", by decide⟩,
    ⟨"list", "\x7b\x7b> body \x7d\x7d", by decide⟩], by decide⟩

/-- the page leads into a cycle that it is no part of; the head, which is rendered twice on the way, is not on it -/
theorem render_cycle_windingLibrary :
    ((ofLibrary windingLibrary).render "page" Slots.empty).2 =
        .error (.renderCycle "body" ["page", "body", "list", "body"]) ∧
      windingLibrary.IsCycle "page" "body" ["page", "body", "list", "body"] := by
  have hlist : windingLibrary.renderPlain ["page", "body"] "list" Slots.empty =
      .error (.renderCycle "body" ["page", "body", "list", "body"]) := by
    refine (Library.renderPlain_valid rfl (by decide) rfl).trans ?_
    show renderSegments _ Slots.empty [.invoke "body" none] = _
    simp only [renderSegments, Segment.render, Slots.within]
    rw [Library.renderPlain_active (t := ⟨"body", _, by decide⟩) rfl (by decide)]
    rfl
  have hhead : ∀ chain, "head" ∉ chain → windingLibrary.renderPlain chain "head" Slots.empty = .ok "text" := by
    intro chain hmem
    refine (Library.renderPlain_valid rfl hmem rfl).trans ?_
    rfl
  have hbody : windingLibrary.renderPlain ["page"] "body" Slots.empty =
      .error (.renderCycle "body" ["page", "body", "list", "body"]) := by
    refine (Library.renderPlain_valid rfl (by decide) rfl).trans ?_
    show renderSegments _ Slots.empty [.invoke "head" none, .invoke "list" none] = _
    simp only [renderSegments, Segment.render, Slots.within, List.cons_append, List.nil_append]
    rw [hhead _ (by decide), hlist]
    rfl
  have hpage : windingLibrary.renderPlain [] "page" Slots.empty =
      .error (.renderCycle "body" ["page", "body", "list", "body"]) := by
    refine (Library.renderPlain_valid rfl (by decide) rfl).trans ?_
    show renderSegments _ Slots.empty [.invoke "head" none, .invoke "body" none] = _
    simp only [renderSegments, Segment.render, Slots.within, List.nil_append]
    rw [hhead _ (by decide), hbody]
    rfl
  have hrender : ((ofLibrary windingLibrary).render "page" Slots.empty).2 =
      .error (.renderCycle "body" ["page", "body", "list", "body"]) :=
    (sound_render (sound_ofLibrary windingLibrary) "page" Slots.empty).1.trans hpage
  exact ⟨hrender, render_cycle hrender⟩

end Engine

end BlockTemplates
