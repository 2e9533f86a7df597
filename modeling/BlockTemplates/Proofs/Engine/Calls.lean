/-
What a call of a renderer leaves as it was.

The chain and the cache are shared by all renders that are nested in each other, and a render that fails gives up in
the midst of them. Still every call, at whatever depth and with whatever outcome, comes back to the chain it began with
(`steps_render`) and keeps every stored output. What it adds are outputs that renders have come back with
(`Steps.stored`), and for its own name and slots it adds nothing if it fails (`find?_renderWithin_of_error`). So calls
of one renderer are answered as separate renders of the engine: `render_intact`.
-/
import BlockTemplates.Proofs.Engine.Persistence
import BlockTemplates.Proofs.Engine.Sharing

namespace BlockTemplates

/-! ## What a render stores -/

namespace Library

variable {lib : Library} {m m' : Moment} {key : Fingerprint} {output : String}

/-- the only step that stores an output comes back with it -/
theorem Step.stored (hstep : lib.Step m m') (h : m.Recorded lib) (hstored : m'.cache.find? key = some output) :
    m.cache.find? key = some output ∨
      ∃ n s, Fingerprint.of n s = .ok key ∧ m'.control = .back n s (.ok output) := by
  cases hstep with
  | @finish frames chain cache name slots own output' =>
    by_cases he : key = own
    · subst he
      have hown : (cache.store key output').1 = output :=
        Option.some.inj ((Cache.find?_store cache key output').symm.trans hstored)
      rw [← hown]
      exact .inr ⟨name, slots, (h.frames _ List.mem_cons_self).2, rfl⟩
    · exact .inl ((Cache.find?_store_of_ne cache own key output' he).symm.trans hstored)
  | _ => exact .inl hstored

/-- every output that is stored was stored before, or a render has come back with it in between -/
theorem Steps.stored {first : Moment} (hsteps : lib.Steps first m) (h : first.Recorded lib)
    (hstored : m.cache.find? key = some output) :
    first.cache.find? key = some output ∨
      ∃ n s m', Fingerprint.of n s = .ok key ∧ lib.Steps first m' ∧ m'.control = .back n s (.ok output) := by
  induction hsteps with
  | refl => exact .inl hstored
  | tail hsteps hstep ih =>
    rcases hstep.stored (Moment.recorded_of_steps h hsteps) hstored with hbefore | ⟨n, s, hkey, hback⟩
    · exact ih hbefore
    · exact .inr ⟨n, s, _, hkey, hsteps.tail hstep, hback⟩

/-- a render that fails stores nothing for its own name and slots -/
theorem find?_renderWithin_of_error {chain : List String} {name : String} {slots : Slots} {cache : Cache} {e : Error}
    (h : ((lib.renderWithin chain name slots).on cache).1 = .error e) (hkey : Fingerprint.of name slots = .ok key) :
    ((lib.renderWithin chain name slots).on cache).2.find? key = cache.find? key := by
  rcases lib.renderWithin_cases chain name slots with ⟨_, hthrow⟩ | ⟨t, own, -, -, hown, hcached⟩
  · rw [hthrow]
    rfl
  obtain rfl : own = key := Except.ok.inj (hown.symm.trans hkey)
  rw [hcached] at h ⊢
  rcases hstored : cache.find? own with _ | old
  · -- below its own name nothing is stored for it, and the failed render itself stores nothing
    have hname : name ∈ chain ++ [name] := List.mem_append_right chain (List.mem_singleton.2 rfl)
    have hbody : ((t.render (lib.renderWithin (chain ++ [name])) slots : Rendering String).on cache.miss).2.find? own =
        cache.miss.find? own := find?_render_of_mem_chain hname hkey t slots cache.miss
    rcases hon : (t.render (lib.renderWithin (chain ++ [name])) slots).on cache.miss with ⟨_ | inner, between⟩
    · rw [hon] at hbody
      rw [Rendering.on_cached_miss_error hstored hon]
      exact hbody.trans hstored
    · rw [Rendering.on_cached_miss_ok hstored hon] at h
      cases h
  · rw [Rendering.on_cached_hit hstored] at h
    cases h

end Library

/-! ## Calls one after another -/

/-- there is only one end that a render can come to -/
theorem Moment.eq_ended {lib : Library} {chain chain' : List String} {name name' : String} {slots slots' : Slots}
    {cache cache' : Cache} {result : Except Error String}
    (h : lib.Steps (start chain name slots cache) ⟨[], chain', cache', .back name' slots' result⟩) :
    (⟨[], chain', cache', .back name' slots' result⟩ : Moment) = ended lib chain name slots cache := by
  rcases (steps_ended_of_steps lib chain name slots cache h).cases_head with heq | ⟨m, hstep, -⟩
  · exact heq
  · exact absurd hstep (Library.not_step_back m)

/-- renders one after another: each begins on the chain and the cache that the one before has left -/
inductive Library.Serves (lib : Library) :
    List String → Cache → List (String × Slots) → List (Except Error String) → List String → Cache → Prop where
  | nil {chain cache} : Serves lib chain cache [] [] chain cache
  | cons {chain cache name slots calls result results chain' cache' chain'' cache''}
    (hfirst : lib.Steps (.start chain name slots cache) ⟨[], chain', cache', .back name slots result⟩)
    (hrest : Serves lib chain' cache' calls results chain'' cache'') :
    Serves lib chain cache ((name, slots) :: calls) (result :: results) chain'' cache''

namespace Renderer

/-- a call takes steps to its outcome, whatever else is being rendered, and ends on the chain it began with -/
theorem steps_render (r : Renderer) (name : String) (slots : Slots) (frames : List Frame) :
    r.engine.library.Steps ⟨frames, r.chain, r.engine.cache, .call name slots⟩
      ⟨frames, (r.render name slots).1.chain, (r.render name slots).1.engine.cache,
        .back name slots (r.render name slots).2⟩ :=
  r.engine.library.steps_renderWithin r.chain name slots frames r.engine.cache

/-- the calls of a renderer, step by step -/
theorem serves_iff (r : Renderer) (calls : List (String × Slots)) (results : List (Except Error String))
    (chain : List String) (cache : Cache) :
    r.engine.library.Serves r.chain r.engine.cache calls results chain cache ↔
      results = (r.renderAll calls).2 ∧ chain = r.chain ∧ cache = (r.renderAll calls).1.engine.cache := by
  induction calls generalizing r results with
  | nil =>
    constructor
    · rintro ⟨⟩
      exact ⟨rfl, rfl, rfl⟩
    · rintro ⟨rfl, rfl, rfl⟩
      exact .nil
  | cons call calls ih =>
    obtain ⟨name, slots⟩ := call
    constructor
    · rintro (_ | ⟨hfirst, hrest⟩)
      cases Moment.eq_ended hfirst
      obtain ⟨rfl, rfl, rfl⟩ := (ih (r.render name slots).1 _).1 hrest
      exact ⟨rfl, rfl, rfl⟩
    · rintro ⟨rfl, rfl, rfl⟩
      exact .cons (r.steps_render name slots []) ((ih (r.render name slots).1 _).2 ⟨rfl, rfl, rfl⟩)

/-- the calls of a renderer above which nothing is being rendered are renders of its engine -/
theorem renderAll_ofEngine (engine : Engine) (calls : List (String × Slots)) :
    (ofEngine engine).renderAll calls = (ofEngine (engine.renderAll calls).1, (engine.renderAll calls).2) := by
  induction calls generalizing engine with
  | nil => rfl
  | cons call calls ih =>
    have hfirst : (ofEngine engine).render call.1 call.2 =
        (ofEngine (engine.render call.1 call.2).1, (engine.render call.1 call.2).2) := rfl
    rw [renderAll, hfirst]
    simp only [ih]
    rfl

/-- **A call leaves its renderer and what is stored intact.** Whatever is being rendered above it and whatever its
outcome: a call takes steps to its end, on the chain it began with; what is stored stays; what is new there, a render
has come back with in the course of the call; and a call that fails stores nothing for its own name and slots. So calls
of one renderer, each on the chain that the one before has left, have the outcomes of separate renders of the engine,
and leave the same outputs, hits and misses. -/
theorem render_intact (r : Renderer) (name : String) (slots : Slots) :
    (∀ frames, r.engine.library.Steps ⟨frames, r.chain, r.engine.cache, .call name slots⟩
      ⟨frames, r.chain, (r.render name slots).1.engine.cache, .back name slots (r.render name slots).2⟩) ∧
    (∀ chain cache name' slots' result,
      r.engine.library.Steps (.start r.chain name slots r.engine.cache) ⟨[], chain, cache, .back name' slots' result⟩ →
        chain = r.chain ∧ cache = (r.render name slots).1.engine.cache ∧ result = (r.render name slots).2) ∧
    (∀ key output, r.engine.cache.find? key = some output →
      (r.render name slots).1.engine.cache.find? key = some output) ∧
    (∀ key output, (r.render name slots).1.engine.cache.find? key = some output →
      r.engine.cache.find? key = some output ∨
        ∃ n s m, Fingerprint.of n s = .ok key ∧
          r.engine.library.Steps (.start r.chain name slots r.engine.cache) m ∧ m.control = .back n s (.ok output)) ∧
    (∀ e key, (r.render name slots).2 = .error e → Fingerprint.of name slots = .ok key →
      (r.render name slots).1.engine.cache.find? key = r.engine.cache.find? key) ∧
    ∀ (engine : Engine) (calls : List (String × Slots)),
      (ofEngine engine).renderAll calls = (ofEngine (engine.renderAll calls).1, (engine.renderAll calls).2) ∧
      ∀ results chain cache, engine.library.Serves [] engine.cache calls results chain cache ↔
        results = (engine.renderAll calls).2 ∧ chain = [] ∧ cache = (engine.renderAll calls).1.cache := by
  refine ⟨r.steps_render name slots, ?_, ?_, ?_, ?_, ?_⟩
  · intro chain cache name' slots' result hsteps
    cases Moment.eq_ended hsteps
    exact ⟨rfl, rfl, rfl⟩
  · exact r.engine.library.subset_renderWithin r.chain name slots r.engine.cache
  · intro key output hstored
    exact (r.steps_render name slots []).stored
      (Moment.recorded_start r.engine.library r.chain name slots r.engine.cache) hstored
  · intro e key he hkey
    exact Library.find?_renderWithin_of_error he hkey
  · intro engine calls
    have hcalls := renderAll_ofEngine engine calls
    refine ⟨hcalls, fun results chain cache => ?_⟩
    have hserves := (ofEngine engine).serves_iff calls results chain cache
    rwa [hcalls] at hserves

end Renderer

end BlockTemplates
