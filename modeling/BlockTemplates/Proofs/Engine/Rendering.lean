/-
What a render does to the cache.

- `renderWithin_missing`, `renderWithin_active`, `renderWithin_invalid` and `renderWithin_cached`: the four things a
  render does, in the order in which it tries them. Proofs about renders go by these and by the induction of
  `renderWithin`, whose step puts a name on the chain.
- `follows_renderWithin`: what holds between a cache and the cache after a hit, a miss or a store of a name that is not
  on the chain, holds between the caches before and after a render.
-/
import BlockTemplates.Engine.Render
import BlockTemplates.Proofs.Template.Rendering

namespace BlockTemplates

/-! ## Stored outputs -/

namespace Cache

variable (cache : Cache) (key other : Fingerprint) (output : String)

theorem misses_store : (cache.store key output).2.misses = cache.misses := by
  unfold store
  split <;> rfl

theorem find?_store_of_ne (h : other ≠ key) : (cache.store key output).2.find? other = cache.find? other := by
  unfold store
  split
  · rfl
  · have hne : (other == key) = false := by simpa using h
    simp [find?, List.lookup_cons, hne]

theorem find?_store : (cache.store key output).2.find? key = some (cache.store key output).1 := by
  unfold store
  split
  · assumption
  · simp [find?]

theorem store_of_none {cache : Cache} {key : Fingerprint} (h : cache.find? key = none) (output : String) :
    cache.store key output = (output, { cache with entries := (key, output) :: cache.entries }) := by
  simp only [store, h]

end Cache

namespace Rendering

/-! ## Sequencing and the cache -/

variable {α β : Type}

theorem on_bind_ok {r : Rendering α} {cache cache' : Cache} {a : α} (h : r.on cache = (.ok a, cache'))
    (f : α → Rendering β) : (r >>= f).on cache = (f a).on cache' := by
  have hrun : r cache = (.ok a, cache') := h
  show (ExceptT.bind r f) cache = f a cache'
  simp only [ExceptT.bind, ExceptT.mk, bind, StateT.bind, hrun]
  rfl

theorem on_bind_error {r : Rendering α} {cache cache' : Cache} {e : Error} (h : r.on cache = (.error e, cache'))
    (f : α → Rendering β) : (r >>= f).on cache = (.error e, cache') := by
  have hrun : r cache = (.error e, cache') := h
  show (ExceptT.bind r f) cache = (.error e, cache')
  simp only [ExceptT.bind, ExceptT.mk, bind, StateT.bind, hrun]
  rfl

theorem on_renderSegments_nil (f : String → Slots → Rendering String) (slots : Slots) (cache : Cache) :
    (renderSegments f slots []).on cache = (.ok "", cache) := rfl

/-- after a segment that is written the others are, and the texts are joined -/
theorem on_renderSegments_cons_ok {f : String → Slots → Rendering String} {slots : Slots} {segment : Segment}
    {cache cache' : Cache} {first : String} (h : (segment.render f slots).on cache = (.ok first, cache'))
    (rest : List Segment) :
    (renderSegments f slots (segment :: rest)).on cache =
      (((renderSegments f slots rest).on cache').1.map (first ++ ·), ((renderSegments f slots rest).on cache').2) := by
  rw [renderSegments, on_bind_ok h]
  rcases hrest : (renderSegments f slots rest).on cache' with ⟨e | others, cache''⟩
  · rw [on_bind_error hrest]
    rfl
  · rw [on_bind_ok hrest]
    rfl

theorem on_renderSegments_cons_error {f : String → Slots → Rendering String} {slots : Slots} {segment : Segment}
    {cache cache' : Cache} {e : Error} (h : (segment.render f slots).on cache = (.error e, cache'))
    (rest : List Segment) : (renderSegments f slots (segment :: rest)).on cache = (.error e, cache') := by
  rw [renderSegments, on_bind_error h]

/-- once the first segments are written, only the others matter for the cache -/
theorem on_renderSegments_append {f : String → Slots → Rendering String} {slots : Slots} {before : List Segment}
    {cache cache' : Cache} {output : String} (h : (renderSegments f slots before).on cache = (.ok output, cache'))
    (rest : List Segment) :
    ((renderSegments f slots (before ++ rest)).on cache).2 = ((renderSegments f slots rest).on cache').2 := by
  induction before generalizing cache output with
  | nil =>
    cases h
    rfl
  | cons segment before ih =>
    rcases hfirst : (segment.render f slots).on cache with ⟨e | first, between⟩
    · rw [on_renderSegments_cons_error hfirst] at h
      cases h
    · rw [on_renderSegments_cons_ok hfirst] at h
      rcases hothers : (renderSegments f slots before).on between with ⟨e | others, last⟩
      · rw [hothers] at h
        cases h
      · rw [hothers] at h
        cases h
        rw [List.cons_append, on_renderSegments_cons_ok hfirst, ih hothers]

theorem on_get (cache : Cache) : (get : Rendering Cache).on cache = (.ok cache, cache) := rfl

theorem on_cached_hit {key : Fingerprint} {cache : Cache} {output : String} (h : cache.find? key = some output)
    (r : Rendering String) : (cached key r).on cache = (.ok output, cache.hit) := by
  rw [cached, on_bind_ok (on_get cache)]
  simp only [h]
  rfl

theorem on_cached_miss_ok {key : Fingerprint} {cache cache' : Cache} {r : Rendering String} {output : String}
    (h : cache.find? key = none) (hr : r.on cache.miss = (.ok output, cache')) :
    (cached key r).on cache = (.ok (cache'.store key output).1, (cache'.store key output).2) := by
  rw [cached, on_bind_ok (on_get cache)]
  simp only [h]
  show (r >>= fun output => modifyGet fun cache => cache.store key output).on cache.miss = _
  rw [on_bind_ok hr]
  rfl

theorem on_cached_miss_error {key : Fingerprint} {cache cache' : Cache} {r : Rendering String} {e : Error}
    (h : cache.find? key = none) (hr : r.on cache.miss = (.error e, cache')) :
    (cached key r).on cache = (.error e, cache') := by
  rw [cached, on_bind_ok (on_get cache)]
  simp only [h]
  show (r >>= fun output => modifyGet fun cache => cache.store key output).on cache.miss = _
  rw [on_bind_error hr]

end Rendering

/-! ## The cases of a render -/

namespace Library

variable {lib : Library} {chain : List String} {name : String} {slots : Slots} {t : Template}

theorem renderWithin_missing (h : lib.find? name = none) :
    lib.renderWithin chain name slots = throw (.missingTemplate name) := by
  rw [renderWithin]
  split
  · rfl
  · simp_all

theorem renderWithin_active (h : lib.find? name = some t) (hmem : name ∈ chain) :
    lib.renderWithin chain name slots = throw (.renderCycle name (chain ++ [name])) := by
  rw [renderWithin]
  split
  · simp_all
  · rw [dif_pos hmem]

theorem renderWithin_invalid (h : lib.find? name = some t) (hmem : name ∉ chain) {e : Error}
    (hkey : Fingerprint.of name slots = .error e) : lib.renderWithin chain name slots = throw e := by
  rw [renderWithin]
  split
  · simp_all
  · rw [dif_neg hmem, hkey]

theorem renderWithin_cached (h : lib.find? name = some t) (hmem : name ∉ chain) {key : Fingerprint}
    (hkey : Fingerprint.of name slots = .ok key) :
    lib.renderWithin chain name slots =
      Rendering.cached key (t.render (lib.renderWithin (chain ++ [name])) slots) := by
  rw [renderWithin]
  split
  · simp_all
  · next t' h' =>
    obtain rfl : t = t' := Option.some.inj (h.symm.trans h')
    rw [dif_neg hmem, hkey]

/-- a render fails at once, or asks the cache for the output of its template -/
theorem renderWithin_cases (lib : Library) (chain : List String) (name : String) (slots : Slots) :
    (∃ e, lib.renderWithin chain name slots = throw e) ∨
      ∃ t key, lib.find? name = some t ∧ name ∉ chain ∧ Fingerprint.of name slots = .ok key ∧
        lib.renderWithin chain name slots =
          Rendering.cached key (t.render (lib.renderWithin (chain ++ [name])) slots) := by
  rcases hfind : lib.find? name with _ | t
  · exact .inl ⟨_, renderWithin_missing hfind⟩
  by_cases hmem : name ∈ chain
  · exact .inl ⟨_, renderWithin_active hfind hmem⟩
  rcases hkey : Fingerprint.of name slots with e | key
  · exact .inl ⟨_, renderWithin_invalid hfind hmem hkey⟩
  · exact .inr ⟨t, key, rfl, hmem, rfl, renderWithin_cached hfind hmem hkey⟩

/-- an output that is stored is given again, whatever its template is now -/
theorem on_renderWithin_hit (h : lib.find? name = some t) (hmem : name ∉ chain) {key : Fingerprint}
    (hkey : Fingerprint.of name slots = .ok key) {cache : Cache} {output : String}
    (hfind : cache.find? key = some output) :
    (lib.renderWithin chain name slots).on cache = (.ok output, cache.hit) := by
  rw [renderWithin_cached h hmem hkey]
  exact Rendering.on_cached_hit hfind _

/-- what a successful render has found, and that its output is stored -/
theorem on_renderWithin_ok {cache cache' : Cache} {output : String}
    (h : (lib.renderWithin chain name slots).on cache = (.ok output, cache')) :
    ∃ t key, lib.find? name = some t ∧ name ∉ chain ∧ Fingerprint.of name slots = .ok key ∧
      cache'.find? key = some output := by
  rcases lib.renderWithin_cases chain name slots with ⟨e, hthrow⟩ | ⟨t, key, hfind, hmem, hkey, hcached⟩
  · rw [hthrow] at h
    cases h
  refine ⟨t, key, hfind, hmem, hkey, ?_⟩
  rw [hcached] at h
  rcases hstored : cache.find? key with _ | old
  · rcases hon : (t.render (lib.renderWithin (chain ++ [name])) slots).on cache.miss with ⟨e | first, between⟩
    · rw [Rendering.on_cached_miss_error hstored hon] at h
      cases h
    · rw [Rendering.on_cached_miss_ok hstored hon] at h
      cases h
      exact Cache.find?_store between key first
  · rw [Rendering.on_cached_hit hstored] at h
    cases h
    exact hstored

end Library

/-! ## Relations of caches -/

/-- a relation between a cache and a later one, if only hits and misses are counted in between -/
structure Cache.Counting (F : Cache → Cache → Prop) : Prop where
  refl : ∀ cache, F cache cache
  trans : ∀ {a b c}, F a b → F b c → F a c
  hit : ∀ cache, F cache cache.hit
  miss : ∀ cache, F cache cache.miss

/-- a rendering, failed or not, leaves a cache to which the one before is related -/
def Rendering.Follows {α : Type} (F : Cache → Cache → Prop) (r : Rendering α) : Prop :=
  ∀ cache, F cache (r.on cache).2

section Follows

variable {F : Cache → Cache → Prop} (hF : Cache.Counting F)

include hF

theorem Rendering.sequential_follows :
    Sequential fun (r _ : Rendering String) => r.Follows F where
  pure s cache := hF.refl cache
  bind {r _ f _} hr hf cache := by
    have hfirst := hr cache
    rcases hon : r.on cache with ⟨e | s, cache'⟩
    · rw [on_bind_error hon]
      rwa [hon] at hfirst
    · rw [on_bind_ok hon]
      rw [hon] at hfirst
      exact hF.trans hfirst (hf s cache')

theorem Rendering.follows_cached {key : Fingerprint} {r : Rendering String} (hr : r.Follows F)
    (hstore : ∀ output cache, F cache (cache.store key output).2) : (Rendering.cached key r).Follows F := by
  intro cache
  rcases hfind : cache.find? key with _ | output
  · have hfirst := hF.trans (hF.miss cache) (hr cache.miss)
    rcases hon : r.on cache.miss with ⟨e | s, cache'⟩
    · rw [on_cached_miss_error hfind hon]
      rwa [hon] at hfirst
    · rw [on_cached_miss_ok hfind hon]
      rw [hon] at hfirst
      exact hF.trans hfirst (hstore s cache')
  · rw [on_cached_hit hfind]
    exact hF.hit cache

/-- renders respect a relation that stores of the names that are not on the chain respect -/
theorem Library.follows_renderWithin (lib : Library) (chain : List String) (name : String) (slots : Slots)
    (hstore : ∀ n ∉ chain, ∀ s key, Fingerprint.of n s = .ok key →
      ∀ output cache, F cache (cache.store key output).2) :
    (lib.renderWithin chain name slots).Follows F := by
  induction chain, name, slots using Library.renderWithin.induct lib with
  | case1 chain name slots hfind =>
    rw [renderWithin_missing hfind]
    exact hF.refl
  | case2 chain name slots t hfind hmem =>
    rw [renderWithin_active hfind hmem]
    exact hF.refl
  | case3 chain name slots t hfind hmem e hkey =>
    rw [renderWithin_invalid hfind hmem hkey]
    exact hF.refl
  | case4 chain name slots t hfind hmem key hkey ih =>
    rw [renderWithin_cached hfind hmem hkey]
    have hnested : ∀ n s, (lib.renderWithin (chain ++ [name]) n s).Follows F :=
      fun n s => ih n s fun n hn => hstore n fun hn' => hn (List.mem_append_left _ hn')
    refine Rendering.follows_cached hF ?_ (hstore name hmem slots key hkey)
    exact t.render_related (g := lib.renderWithin (chain ++ [name])) (Rendering.sequential_follows hF)
      (fun n _ s => hnested n s) slots

/-- so does the rendering of a template below a chain -/
theorem Library.follows_render (lib : Library) (chain : List String) (t : Template) (slots : Slots)
    (hstore : ∀ n ∉ chain, ∀ s key, Fingerprint.of n s = .ok key →
      ∀ output cache, F cache (cache.store key output).2) :
    (t.render (lib.renderWithin chain) slots : Rendering String).Follows F :=
  t.render_related (g := lib.renderWithin chain) (Rendering.sequential_follows hF)
    (fun n _ s => lib.follows_renderWithin hF chain n s hstore) slots

end Follows

end BlockTemplates
