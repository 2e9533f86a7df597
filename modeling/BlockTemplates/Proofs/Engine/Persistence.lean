/-
Outputs that stay.

A cache only grows: steps of a render, whole renders and all operations but the clearing keep every stored output
(`Cache.Subset`). A render that has given an output, at the top or nested in another that may fail later, has left it in
the cache (`recorded_of_steps`). No operation drops a name, and a stored output is given before anything else is asked of
the template; so the output is given again for as long as the cache is not cleared (`render_persists`).
-/
import BlockTemplates.Proofs.Engine.Machine
import BlockTemplates.Proofs.Engine.Run

namespace BlockTemplates

/-! ## Caches that grow -/

namespace Cache

/-- every stored output is stored in `later` as well -/
def Subset (cache later : Cache) : Prop :=
  ∀ key output, cache.find? key = some output → later.find? key = some output

theorem Subset.refl (cache : Cache) : cache.Subset cache :=
  fun _ _ h => h

theorem Subset.trans {a b c : Cache} (hab : a.Subset b) (hbc : b.Subset c) : a.Subset c :=
  fun key output h => hbc key output (hab key output h)

theorem subset_store (cache : Cache) (key : Fingerprint) (output : String) :
    cache.Subset (cache.store key output).2 := by
  intro other old h
  by_cases he : other = key
  · subst he
    rw [store, h]
    exact h
  · rw [find?_store_of_ne cache key other output he]
    exact h

theorem counting_subset : Counting Subset :=
  ⟨Subset.refl, Subset.trans, fun _ _ _ h => h, fun _ _ _ h => h⟩

/-- the output of `name` with `slots` is stored -/
def Holds (cache : Cache) (name : String) (slots : Slots) (output : String) : Prop :=
  ∃ key, Fingerprint.of name slots = .ok key ∧ cache.find? key = some output

theorem Holds.of_subset {cache later : Cache} {name output : String} {slots : Slots}
    (h : cache.Holds name slots output) (hsub : cache.Subset later) : later.Holds name slots output := by
  obtain ⟨key, hkey, hfind⟩ := h
  exact ⟨key, hkey, hsub key output hfind⟩

end Cache

/-! ## Renders and their steps -/

namespace Library

theorem subset_renderWithin (lib : Library) (chain : List String) (name : String) (slots : Slots) :
    (lib.renderWithin chain name slots).Follows Cache.Subset :=
  lib.follows_renderWithin Cache.counting_subset chain name slots
    fun _ _ _ key _ output cache => cache.subset_store key output

theorem subset_renderSegments (lib : Library) (chain : List String) (slots : Slots) (segments : List Segment) :
    (renderSegments (lib.renderWithin chain) slots segments : Rendering String).Follows Cache.Subset :=
  lib.follows_renderSegments Cache.counting_subset subset_renderWithin chain slots segments

variable {lib : Library} {m m' : Moment}

theorem Step.subset_cache (h : lib.Step m m') : m.cache.Subset m'.cache := by
  cases h with
  | hit => exact Cache.counting_subset.hit _
  | miss => exact Cache.counting_subset.miss _
  | finish => exact Cache.subset_store _ _ _
  | _ => exact Cache.Subset.refl _

theorem Steps.subset_cache (h : lib.Steps m m') : m.cache.Subset m'.cache := by
  induction h with
  | refl => exact Cache.Subset.refl _
  | tail _ hstep ih => exact ih.trans hstep.subset_cache

end Library

/-- the templates that are being rendered are in the library and have their fingerprints, and the output that a render
has just given is stored -/
structure Moment.Recorded (lib : Library) (m : Moment) : Prop where
  frames : ∀ f ∈ m.frames, f.name ∈ lib.names ∧ Fingerprint.of f.name f.slots = .ok f.key
  back : ∀ name slots output, m.control = .back name slots (.ok output) →
    name ∈ lib.names ∧ m.cache.Holds name slots output

namespace Moment

variable {lib : Library} {m m' : Moment}

theorem recorded_start (lib : Library) (chain : List String) (name : String) (slots : Slots) (cache : Cache) :
    (start chain name slots cache).Recorded lib :=
  ⟨nofun, nofun⟩

/-- only a hit and the end of a template give an output, and both find it in the cache -/
theorem Recorded.step (h : m.Recorded lib) (hstep : lib.Step m m') : m'.Recorded lib := by
  obtain ⟨hframes, -⟩ := h
  cases hstep with
  | hit hfind hmem hkey hstored =>
    refine ⟨hframes, fun n s o he => ?_⟩
    cases he
    exact ⟨Library.mem_names_of_find? hfind, _, hkey, hstored⟩
  | miss hfind hmem hkey hstored =>
    refine ⟨?_, nofun⟩
    exact List.forall_mem_cons.2 ⟨⟨Library.mem_names_of_find? hfind, hkey⟩, hframes⟩
  | finish =>
    obtain ⟨⟨hname, hkey⟩, hrest⟩ := List.forall_mem_cons.1 hframes
    refine ⟨hrest, fun n s o he => ?_⟩
    cases he
    exact ⟨hname, _, hkey, Cache.find?_store _ _ _⟩
  | fail => exact ⟨(List.forall_mem_cons.1 hframes).2, nofun⟩
  | missing | active | invalid => exact ⟨hframes, nofun⟩
  | text | slot | invoke | resume =>
    -- what is left to write and what has been written is no matter
    exact ⟨List.forall_mem_cons.2 (List.forall_mem_cons.1 hframes), nofun⟩

theorem recorded_of_steps (h : m.Recorded lib) (hsteps : lib.Steps m m') : m'.Recorded lib := by
  induction hsteps with
  | refl => exact h
  | tail _ hstep ih => exact ih.step hstep

end Moment

/-! ## Outputs that renders give -/

namespace Renderer

variable (r : Renderer)

theorem renderAll_append (before after : List (String × Slots)) :
    (r.renderAll (before ++ after)).1 = ((r.renderAll before).1.renderAll after).1 := by
  induction before generalizing r with
  | nil => rfl
  | cons call before ih => exact ih (r.render call.1 call.2).1

theorem chain_renderAll (calls : List (String × Slots)) : (r.renderAll calls).1.chain = r.chain := by
  induction calls generalizing r with
  | nil => rfl
  | cons call calls ih => exact ih (r.render call.1 call.2).1

end Renderer

namespace Operation

/-- the renders that an operation makes at the top, with the caches they find -/
inductive Asks (engine : Engine) : Operation → String → Slots → Cache → Prop where
  | render (name : String) (slots : Slots) : Asks engine (.render name slots) name slots engine.cache
  | renderer (before after : List (String × Slots)) (name : String) (slots : Slots) :
    Asks engine (.renderer (before ++ (name, slots) :: after)) name slots
      ((Renderer.ofEngine engine).renderAll before).1.engine.cache
  /-- the segments in front of the invocation have been written -/
  | renderTemplate {t : Template} {slots : Slots} {before after : List Segment} {name : String}
    {scope : Option SlotPath} {output : String} {cache : Cache}
    (hsegments : t.segments = before ++ .invoke name scope :: after)
    (hbefore : (renderSegments (engine.library.renderWithin []) slots before : Rendering String).on engine.cache =
      (.ok output, cache)) :
    Asks engine (.renderTemplate t slots) name (slots.within scope) cache

/-- in the course of an operation a render of `name` with `slots` has given `output`, at the top or nested in another -/
def Gives (op : Operation) (engine : Engine) (name : String) (slots : Slots) (output : String) : Prop :=
  ∃ top topSlots cache m, op.Asks engine top topSlots cache ∧
    engine.library.Steps (.start [] top topSlots cache) m ∧ m.control = .back name slots (.ok output)

/-- what a render at the top leaves in the cache is there at the end of the operation -/
theorem Asks.subset_cache {engine : Engine} {op : Operation} {name : String} {slots : Slots} {cache : Cache}
    (h : op.Asks engine name slots cache) :
    ((engine.library.renderWithin [] name slots).on cache).2.Subset (op.apply engine).cache := by
  cases h with
  | render => exact Cache.Subset.refl _
  | renderer before after =>
    have hlibrary := (Renderer.ofEngine engine).library_renderAll before
    have hchain := (Renderer.ofEngine engine).chain_renderAll before
    rw [apply, Renderer.renderAll_append]
    generalize ((Renderer.ofEngine engine).renderAll before).1 = r at *
    -- after any renders a renderer has the library and the empty chain it began with
    have hcache : (r.render name slots).1.engine.cache =
        ((engine.library.renderWithin [] name slots).on r.engine.cache).2 := by
      rw [Renderer.render, hlibrary, hchain]
      rfl
    rw [← hcache]
    exact Renderer.follows_renderAll Cache.counting_subset Library.subset_renderWithin (r.render name slots).1 after
  | @renderTemplate t slots before after name scope output cache hsegments hbefore =>
    -- the template's own output is not stored, so only its segments matter
    have hcache : ((Operation.renderTemplate t slots).apply engine).cache =
        ((renderSegments (engine.library.renderWithin []) slots (.invoke name scope :: after) : Rendering String).on
          cache).2 := by
      rw [← Rendering.on_renderSegments_append hbefore, ← hsegments]
      rfl
    rw [hcache]
    rcases hon : (engine.library.renderWithin [] name (slots.within scope)).on cache with ⟨result, cache'⟩
    have hinvoke : ((Segment.invoke name scope).render (engine.library.renderWithin []) slots : Rendering String).on
        cache = (result, cache') := hon
    cases result with
    | error e =>
      rw [Rendering.on_renderSegments_cons_error hinvoke]
      exact Cache.Subset.refl cache'
    | ok inner =>
      rw [Rendering.on_renderSegments_cons_ok hinvoke]
      exact engine.library.subset_renderSegments [] slots after cache'

/-- an output that is given in the course of an operation is stored at its end -/
theorem Gives.recorded {engine : Engine} {op : Operation} {name output : String} {slots : Slots}
    (h : op.Gives engine name slots output) :
    name ∈ engine.library.names ∧ (op.apply engine).cache.Holds name slots output := by
  obtain ⟨top, topSlots, cache, m, hasks, hsteps, hcontrol⟩ := h
  have hrecorded := Moment.recorded_of_steps (Moment.recorded_start engine.library [] top topSlots cache) hsteps
  obtain ⟨hname, hholds⟩ := hrecorded.back name slots output hcontrol
  have hended := (Moment.steps_ended_of_steps engine.library [] top topSlots cache hsteps).subset_cache
  exact ⟨hname, hholds.of_subset (hended.trans hasks.subset_cache)⟩

end Operation

/-! ## Runs -/

namespace Engine

theorem subset_cache_run (engine : Engine) {ops : List Operation} (h : .clearCache ∉ ops) :
    engine.cache.Subset (engine.run ops).cache := by
  induction ops generalizing engine with
  | nil => exact Cache.Subset.refl engine.cache
  | cons op ops ih =>
    obtain ⟨hop, hops⟩ := List.ne_and_not_mem_of_not_mem_cons h
    have hfirst := Operation.follows_apply Cache.counting_subset Library.subset_renderWithin hop.symm engine
    exact hfirst.trans (ih (op.apply engine) hops)

/-- a stored output of a name of the library is given, and the lookup is counted as a hit -/
theorem render_of_holds {engine : Engine} {name output : String} {slots : Slots} (hname : name ∈ engine.library.names)
    (h : engine.cache.Holds name slots output) :
    engine.render name slots = ({ engine with cache := engine.cache.hit }, .ok output) := by
  obtain ⟨key, hkey, hstored⟩ := h
  obtain ⟨t, hfind⟩ := Option.isSome_iff_exists.1 (Library.contains_iff.2 hname)
  rw [render, rendering, Library.on_renderWithin_hit hfind List.not_mem_nil hkey hstored]

/-- **Outputs stay.** Once a render of `name` with `slots` has given `output`, at the top of an operation or nested in
another render, which may have failed since, every render of them from the top gives `output` again, whatever has been
done in between but a clearing of the cache. -/
theorem render_persists (engine : Engine) (before : List Operation) {op : Operation} {name output : String}
    {slots : Slots} (hgives : op.Gives (engine.run before) name slots output) {after : List Operation}
    (hclear : .clearCache ∉ after) :
    (engine.run (before ++ op :: after)).render name slots =
      ({ engine.run (before ++ op :: after) with cache := (engine.run (before ++ op :: after)).cache.hit },
        .ok output) := by
  obtain ⟨hname, hholds⟩ := hgives.recorded
  have hrun : engine.run (before ++ op :: after) = (op.apply (engine.run before)).run after := by
    rw [run, List.foldl_append, List.foldl_cons]
    rfl
  have hnames : (engine.run before).library.names <+: ((op.apply (engine.run before)).run after).library.names :=
    names_prefix_run (engine.run before) (op :: after)
  rw [hrun]
  exact render_of_holds (hnames.subset hname) (hholds.of_subset (subset_cache_run _ hclear))

/-- `frame` invokes `inner` and then a template that is not there -/
def brokenLibrary : Library :=
  ⟨[⟨"frame", "\x7b\x7b> inner \x7d\x7d\x7b\x7b> gone \x7d\x7d", by decide⟩, ⟨"inner", "text", by decide⟩], by decide⟩

/-- the frame fails, but `inner` has been rendered for it -/
theorem gives_brokenLibrary :
    (Operation.render "frame" Slots.empty).Gives (ofLibrary brokenLibrary) "inner" Slots.empty "text" := by
  have hcall : ∀ {name slots t segments key frames chain cache}, brokenLibrary.find? name = some t →
      t.segments = segments → name ∉ chain → Fingerprint.of name slots = .ok key → cache.find? key = none →
        brokenLibrary.Step ⟨frames, chain, cache, .call name slots⟩
          ⟨⟨name, slots, key, segments, ""⟩ :: frames, chain ++ [name], cache.miss, .write⟩ := by
    rintro name slots t _ key frames chain cache hfind rfl hmem hkey hstored
    exact .miss hfind hmem hkey hstored
  have hframe : (⟨"frame", "\x7b\x7b> inner \x7d\x7d\x7b\x7b> gone \x7d\x7d", by decide⟩ : Template).segments =
      [.invoke "inner" none, .invoke "gone" none] := by
    decide +kernel
  have hinner : (⟨"inner", "text", by decide⟩ : Template).segments = [.text "text"] := by
    decide +kernel
  exact ⟨"frame", Slots.empty, Cache.empty, _, .render "frame" Slots.empty,
    .head (hcall rfl hframe List.not_mem_nil rfl rfl) <| .head .invoke <|
      .head (hcall rfl hinner (by decide) rfl rfl) <| .head .text <| .single .finish, rfl⟩

/-- `inner` is overwritten by a template that invokes the frame, which invokes `inner`; its output is given all the same -/
theorem render_persists_brokenLibrary :
    (Operation.render "frame" Slots.empty).Gives ((ofLibrary brokenLibrary).run []) "inner" Slots.empty "text" ∧
      .clearCache ∉ [Operation.add ⟨"inner", "\x7b\x7b> frame \x7d\x7d", by decide⟩ .overwrite] ∧
      (((ofLibrary brokenLibrary).run [.render "frame" Slots.empty,
        .add ⟨"inner", "\x7b\x7b> frame \x7d\x7d", by decide⟩ .overwrite]).render "inner" Slots.empty).2 =
          .ok "text" := by
  have hclear : .clearCache ∉ [Operation.add ⟨"inner", "\x7b\x7b> frame \x7d\x7d", by decide⟩ .overwrite] :=
    List.not_mem_cons_of_ne_of_not_mem nofun List.not_mem_nil
  refine ⟨gives_brokenLibrary, hclear, ?_⟩
  have hrender := render_persists (ofLibrary brokenLibrary) [] gives_brokenLibrary hclear
  rw [List.nil_append] at hrender
  rw [hrender]

end Engine

end BlockTemplates
