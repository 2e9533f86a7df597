/-
The cache is transparent: an engine renders as if it had none.

A cache is sound for a library if every stored output is what `renderPlain` gives for its name and slots with nothing
else being rendered. A fingerprint does not say below which chain its output was rendered, and the chain decides whether
a render fails as a cycle. `agrees_renderWithin` is where this is settled: during a render every name on the chain
reaches the name that is rendered, so if a stored output could be wrong below the chain, the name would reach itself,
and then it has no stored output.

- `sound_apply`: what an operation leaves is sound, unless it replaces a template by another.
- `render_transparent`: the outcome of every render, and of renders in sequence after the cache is cleared.
-/
import BlockTemplates.Proofs.Engine.Fingerprint
import BlockTemplates.Proofs.Engine.Rendering
import BlockTemplates.Proofs.Engine.Run
import BlockTemplates.Proofs.Engine.Uncached

namespace BlockTemplates

/-! ## Sound caches -/

/-- every stored output is the output of a render without a cache -/
def Cache.Sound (cache : Cache) (lib : Library) : Prop :=
  ∀ name slots key output, Fingerprint.of name slots = .ok key → cache.find? key = some output →
    lib.renderPlain [] name slots = .ok output

namespace Cache.Sound

variable {cache : Cache} {lib : Library}

theorem empty (lib : Library) : Cache.empty.Sound lib :=
  fun _ _ _ _ _ h => nomatch h

theorem clear (cache : Cache) (lib : Library) : cache.clear.Sound lib :=
  fun _ _ _ _ _ h => nomatch h

theorem hit (h : cache.Sound lib) : cache.hit.Sound lib :=
  h

theorem miss (h : cache.Sound lib) : cache.miss.Sound lib :=
  h

/-- stored outputs stay right when the library grows -/
theorem of_subset {lib' : Library} (hsub : lib.Subset lib') (h : cache.Sound lib) : cache.Sound lib' :=
  fun name slots key output hkey hfind =>
    Library.renderPlain_ok_of_subset hsub (h name slots key output hkey hfind) fun _ _ => List.not_mem_nil

/-- an output may be stored if it is the output of a render without a cache -/
theorem store (h : cache.Sound lib) {name : String} {slots : Slots} {key : Fingerprint} {output : String}
    (hkey : Fingerprint.of name slots = .ok key) (hplain : lib.renderPlain [] name slots = .ok output) :
    (cache.store key output).1 = output ∧ (cache.store key output).2.Sound lib := by
  have hstored : (cache.store key output).1 = output := by
    unfold Cache.store
    split
    · next old hold => exact Except.ok.inj ((h name slots key old hkey hold).symm.trans hplain)
    · rfl
  refine ⟨hstored, ?_⟩
  intro name' slots' key' output' hkey' hfind
  by_cases hne : key' = key
  · -- the same fingerprint is the fingerprint of the same render
    obtain rfl := hne
    obtain ⟨rfl, rfl⟩ := Fingerprint.of_injective hkey' hkey
    rw [find?_store, hstored] at hfind
    rwa [← Option.some.inj hfind]
  · rw [find?_store_of_ne cache key key' output hne] at hfind
    exact h name' slots' key' output' hkey' hfind

end Cache.Sound

/-! ## Renders on a sound cache -/

/-- on every sound cache a rendering has the outcome `x` and leaves a sound cache -/
def Rendering.Agrees (lib : Library) (r : Rendering String) (x : Except Error String) : Prop :=
  ∀ cache : Cache, cache.Sound lib → (r.on cache).1 = x ∧ (r.on cache).2.Sound lib

namespace Rendering

variable {lib : Library}

theorem agrees_throw (e : Error) : Agrees lib (throw e) (.error e) :=
  fun _ h => ⟨rfl, h⟩

theorem sequential_agrees : Sequential (Agrees lib) where
  pure s cache h := ⟨rfl, h⟩
  bind {r x f g} hr hf cache h := by
    obtain ⟨hx, hsound⟩ := hr cache h
    rcases hon : r.on cache with ⟨e | s, cache'⟩
    · rw [hon] at hx hsound
      rw [on_bind_error hon]
      subst hx
      exact ⟨rfl, hsound⟩
    · rw [hon] at hx hsound
      rw [on_bind_ok hon]
      subst hx
      exact hf s cache' hsound

/-- asking the cache first changes nothing where a render above everything says what a render below the chain says -/
theorem agrees_cached {chain : List String} {name : String} {slots : Slots} {key : Fingerprint} {r : Rendering String}
    (hkey : Fingerprint.of name slots = .ok key) (hr : Agrees lib r (lib.renderPlain chain name slots))
    (habove : ∀ output, lib.renderPlain [] name slots = .ok output → lib.renderPlain chain name slots = .ok output) :
    Agrees lib (cached key r) (lib.renderPlain chain name slots) := by
  intro cache h
  rcases hfind : cache.find? key with _ | output
  · obtain ⟨hx, hsound⟩ := hr cache.miss h.miss
    rcases hon : r.on cache.miss with ⟨e | s, cache'⟩
    · rw [hon] at hx hsound
      rw [on_cached_miss_error hfind hon]
      exact ⟨hx, hsound⟩
    · rw [hon] at hx hsound
      rw [on_cached_miss_ok hfind hon]
      have hplain : lib.renderPlain [] name slots = .ok s :=
        Library.renderPlain_ok_of_subset (Library.Subset.refl lib) hx.symm fun _ _ => List.not_mem_nil
      obtain ⟨hstored, hsound'⟩ := hsound.store hkey hplain
      exact ⟨by rw [hstored, ← hx], hsound'⟩
  · rw [on_cached_hit hfind]
    exact ⟨(habove output (h name slots key output hkey hfind)).symm, h.hit⟩

end Rendering

open Rendering in
/-- below a chain that reaches the name, a render on a sound cache has the outcome of a render without one -/
theorem Library.agrees_renderWithin (lib : Library) (chain : List String) (name : String) (slots : Slots)
    (hchain : ∀ x ∈ chain, lib.ReachesBelow x name) :
    Agrees lib (lib.renderWithin chain name slots) (lib.renderPlain chain name slots) := by
  induction chain, name, slots using Library.renderWithin.induct lib with
  | case1 chain name slots hfind =>
    rw [renderWithin_missing hfind, renderPlain_missing hfind]
    exact agrees_throw _
  | case2 chain name slots t hfind hmem =>
    rw [renderWithin_active hfind hmem, renderPlain_active hfind hmem]
    exact agrees_throw _
  | case3 chain name slots t hfind hmem e hkey =>
    rw [renderWithin_invalid hfind hmem hkey, renderPlain_invalid hfind hmem (Fingerprint.checkFinite_of_error hkey)]
    exact agrees_throw _
  | case4 chain name slots t hfind hmem key hkey ih =>
    have hvalid : slots.checkFinite = .ok () := Slots.checkFinite_eq_ok_iff.2 (Fingerprint.of_eq_ok_iff.1 hkey).1
    have hnested : ∀ n ∈ t.dependencies, ∀ s,
        Agrees lib (lib.renderWithin (chain ++ [name]) n s) (lib.renderPlain (chain ++ [name]) n s) :=
      fun n hn s => ih n s (reachesBelow_of_mem_chain hchain ⟨t, hfind, hn⟩)
    have hrender : Agrees lib (t.render (lib.renderWithin (chain ++ [name])) slots)
        (lib.renderPlain chain name slots) := by
      rw [renderPlain_valid hfind hmem hvalid]
      exact t.render_related sequential_agrees hnested slots
    rw [renderWithin_cached hfind hmem hkey]
    exact agrees_cached hkey hrender fun output => renderPlain_ok_of_above hchain

/-! ## Engines -/

namespace Engine

def Sound (engine : Engine) : Prop :=
  engine.cache.Sound engine.library

theorem sound_ofLibrary (lib : Library) : (ofLibrary lib).Sound :=
  Cache.Sound.empty lib

theorem sound_clearCache (engine : Engine) : engine.clearCache.Sound :=
  Cache.Sound.clear engine.cache engine.library

theorem sound_rendering {engine : Engine} (h : engine.Sound) {r : Rendering String} {x : Except Error String}
    (hr : r.Agrees engine.library x) : (engine.rendering r).2 = x ∧ (engine.rendering r).1.Sound :=
  hr engine.cache h

/-- a sound engine renders as if it had no cache, and stays sound -/
theorem sound_render {engine : Engine} (h : engine.Sound) (name : String) (slots : Slots) :
    (engine.render name slots).2 = engine.library.renderPlain [] name slots ∧ (engine.render name slots).1.Sound :=
  sound_rendering h (engine.library.agrees_renderWithin [] name slots fun _ hx => nomatch hx)

theorem sound_renderTemplate {engine : Engine} (h : engine.Sound) (t : Template) (slots : Slots) :
    (engine.renderTemplate t slots).1.Sound := by
  have hnested : ∀ n ∈ t.dependencies, ∀ s,
      Rendering.Agrees engine.library (engine.library.renderWithin [] n s) (engine.library.renderPlain [] n s) :=
    fun n _ s => engine.library.agrees_renderWithin [] n s fun _ hx => nomatch hx
  exact (sound_rendering h (t.render_related Rendering.sequential_agrees hnested slots)).2

theorem sound_renderAll {engine : Engine} (h : engine.Sound) (calls : List (String × Slots)) :
    (engine.renderAll calls).2 = calls.map fun call => engine.library.renderPlain [] call.1 call.2 := by
  induction calls generalizing engine with
  | nil => rfl
  | cons call calls ih =>
    obtain ⟨name, slots⟩ := call
    obtain ⟨hresult, hsound⟩ := sound_render h name slots
    calc (engine.renderAll ((name, slots) :: calls)).2
        = (engine.render name slots).2 :: ((engine.render name slots).1.renderAll calls).2 := rfl
      _ = _ := by rw [hresult, ih hsound]; rfl

end Engine

theorem Renderer.sound_renderAll {r : Renderer} (hchain : r.chain = []) (h : r.engine.Sound)
    (calls : List (String × Slots)) : (r.renderAll calls).1.engine.Sound := by
  induction calls generalizing r with
  | nil => exact h
  | cons call calls ih =>
    have hrender : r.render call.1 call.2 =
        ({ r with engine := (r.engine.render call.1 call.2).1 }, (r.engine.render call.1 call.2).2) := by
      unfold render Engine.render
      rw [hchain]
    have hnext : (r.render call.1 call.2).1.engine.Sound := by
      rw [hrender]
      exact (Engine.sound_render h call.1 call.2).2
    exact ih (r := (r.render call.1 call.2).1) (by rw [hrender]; exact hchain) hnext

namespace Engine

/-- an operation that keeps the templates keeps the cache sound -/
theorem sound_apply {engine : Engine} (h : engine.Sound) (op : Operation)
    (hsub : engine.library.Subset (op.apply engine).library) : (op.apply engine).Sound := by
  cases op with
  | parse input policy => exact h.of_subset hsub
  | add t policy =>
    have hsound : engine.cache.Sound (engine.add t policy).1.library := h.of_subset hsub
    rw [← cache_add] at hsound
    exact hsound
  | merge other policy => exact h.of_subset hsub
  | render name slots => exact (sound_render h name slots).2
  | renderTemplate t slots => exact sound_renderTemplate h t slots
  | renderer calls => exact Renderer.sound_renderAll rfl h calls
  | clearCache => exact sound_clearCache engine

theorem sound_run {engine : Engine} {ops : List Operation} (h : engine.Sound ∨ .clearCache ∈ ops)
    (hops : engine.Undisturbed ops) : (engine.run ops).Sound := by
  induction ops generalizing engine with
  | nil => exact h.resolve_right List.not_mem_nil
  | cons op ops ih =>
    obtain ⟨hop, hops⟩ := hops
    refine ih ?_ hops
    rcases h with h | h
    · exact hop.imp_left (sound_apply h op)
    · rcases List.mem_cons.1 h with rfl | h
      · exact .inl (sound_clearCache engine)
      · exact .inr h

/-- **The cache is transparent.** After operations of which none replaces a template by another, save before the cache
was last cleared, a render has the outcome of a render without a cache. In particular, an engine with any cache renders,
once that is cleared, as a fresh engine on its library does. -/
theorem render_transparent :
    (∀ (lib : Library) (ops : List Operation), (ofLibrary lib).Undisturbed ops → ∀ (name : String) (slots : Slots),
      (((ofLibrary lib).run ops).render name slots).2 =
        ((ofLibrary lib).run ops).library.renderPlain [] name slots) ∧
    ∀ (engine : Engine) (calls : List (String × Slots)),
      (engine.clearCache.renderAll calls).2 = ((ofLibrary engine.library).renderAll calls).2 := by
  constructor
  · intro lib ops hops name slots
    have hsound := sound_run (.inl (sound_ofLibrary lib)) hops
    exact (sound_render hsound name slots).1
  · intro engine calls
    rw [sound_renderAll (sound_clearCache engine), sound_renderAll (sound_ofLibrary engine.library)]
    rfl

/-- a run that overwrites after a render and clears the cache then; before and after, nothing is replaced -/
def overwritingRun : List Operation :=
  [.parse "<%%STARTTEMPLATE a%%>[\x7b\x7b> b \x7d\x7d]<%%ENDTEMPLATE a%%>" .error,
    .add ⟨"b", "x", by decide⟩ .error,
    .render "a" Slots.empty,
    .add ⟨"b", "y", by decide⟩ .overwrite,
    .clearCache,
    .renderer [("b", Slots.empty), ("a", Slots.empty)],
    .merge ⟨[⟨"b", "z", by decide⟩, ⟨"c", "\x7b\x7b> c \x7d\x7d", by decide⟩], by decide⟩ .ignore]

theorem undisturbed_overwritingRun (lib : Library) : (ofLibrary lib).Undisturbed overwritingRun := by
  have hkept : ∀ (engine : Engine) (op : Operation), op.overwrites = false →
      engine.library.Subset (op.apply engine).library :=
    fun engine op h => op.library_subset_apply h engine
  exact ⟨.inl (hkept _ _ rfl), .inl (hkept _ _ rfl), .inl (hkept _ _ rfl), .inr (by simp), .inl (hkept _ _ rfl),
    .inl (hkept _ _ rfl), .inl (hkept _ _ rfl), trivial⟩

/-- the output is made of the bodies that are there, not of what was rendered before -/
theorem render_transparent_overwritten :
    (ofLibrary Library.empty).Undisturbed overwritingRun ∧
      (((ofLibrary Library.empty).run overwritingRun).render "a" Slots.empty).2 = .ok "[y]" := by
  have hops := undisturbed_overwritingRun Library.empty
  refine ⟨hops, ?_⟩
  rw [render_transparent.1 Library.empty overwritingRun hops "a" Slots.empty, library_run]
  have ha : (overwritingRun.foldl Operation.change Library.empty).find? "a" =
      some ⟨"a", "[\x7b\x7b> b \x7d\x7d]", by decide⟩ := by decide +kernel
  have hb : (overwritingRun.foldl Operation.change Library.empty).find? "b" = some ⟨"b", "y", by decide⟩ := by
    decide +kernel
  have hnested : Library.renderPlain _ ["a"] "b" Slots.empty = .ok "y" :=
    Library.renderPlain_valid hb (by decide) rfl
  refine (Library.renderPlain_valid ha List.not_mem_nil rfl).trans ?_
  show renderSegments _ Slots.empty [.text "[", .invoke "b" none, .text "]"] = _
  simp only [renderSegments, Segment.render, Slots.within, List.nil_append, hnested]
  rfl

end Engine

end BlockTemplates
