/-
Equal slots and stored outputs.

Equality of slots does not tell the two zeros apart, canonical JSON does. So of two equal collections of slots the
second is answered from what was stored for the first exactly if their zeros have the same signs: `render_equal_slots`.
Where the signs differ, the render of the first stores nothing for the second (`find?_renderWithin_of_ne`), and the
template is rendered again.
-/
import BlockTemplates.Proofs.Engine.Transparency

namespace BlockTemplates

/-- equal slots have one fingerprint exactly if their zeros have the same signs -/
theorem Fingerprint.eq_iff_zeroSigns {name : String} {a b : Slots} {j k : Fingerprint} (h : a.same b = true)
    (hj : of name a = .ok j) (hk : of name b = .ok k) : j = k ↔ a.zeroSigns = b.zeroSigns := by
  rw [← Slots.eq_iff_zeroSigns h]
  constructor
  · rintro rfl
    exact (of_injective hj hk).2
  · rintro rfl
    exact Except.ok.inj (hj.symm.trans hk)

theorem Cache.counting_find? (k : Fingerprint) : Counting fun cache cache' => cache'.find? k = cache.find? k :=
  ⟨fun _ => rfl, fun hab hbc => hbc.trans hab, fun _ => rfl, fun _ => rfl⟩

namespace Library

/-- below its own name a template is rendered without storing anything for that name: that would be a cycle -/
theorem find?_render_of_mem_chain {lib : Library} {chain : List String} {name : String} {s : Slots} {k : Fingerprint}
    (hmem : name ∈ chain) (hk : Fingerprint.of name s = .ok k) (t : Template) (slots : Slots) (cache : Cache) :
    ((t.render (lib.renderWithin chain) slots : Rendering String).on cache).2.find? k = cache.find? k := by
  refine lib.follows_render (Cache.counting_find? k) chain t slots ?_ cache
  intro n hn s' key hkey output cache
  refine Cache.find?_store_of_ne cache key k output ?_
  rintro rfl
  obtain ⟨rfl, -⟩ := Fingerprint.of_injective hk hkey
  exact hn hmem

/-- a render stores nothing for other slots of its own template -/
theorem find?_renderWithin_of_ne {lib : Library} {chain : List String} {name : String} {a b : Slots} {k : Fingerprint}
    (hk : Fingerprint.of name b = .ok k) (hne : a ≠ b) (cache : Cache) :
    ((lib.renderWithin chain name a).on cache).2.find? k = cache.find? k := by
  rcases lib.renderWithin_cases chain name a with ⟨e, hthrow⟩ | ⟨t, key, -, -, hkey, hcached⟩
  · rw [hthrow]
    rfl
  · have hown : name ∈ chain ++ [name] := List.mem_append_right chain (List.mem_singleton.2 rfl)
    rw [hcached]
    refine Rendering.follows_cached (Cache.counting_find? k) (find?_render_of_mem_chain hown hk t a)
      (fun output cache => ?_) cache
    refine Cache.find?_store_of_ne cache key k output ?_
    rintro rfl
    exact hne (Fingerprint.of_injective hkey hk).2

theorem misses_le_renderWithin (lib : Library) (chain : List String) (t : Template) (slots : Slots) (cache : Cache) :
    cache.misses ≤ ((t.render (lib.renderWithin chain) slots : Rendering String).on cache).2.misses := by
  have hcounting : Cache.Counting fun cache cache' => cache.misses ≤ cache'.misses :=
    ⟨fun _ => le_rfl, fun hab hbc => hab.trans hbc, fun _ => le_rfl, fun cache => Nat.le_succ cache.misses⟩
  refine lib.follows_render hcounting chain t slots ?_ cache
  intro n _ s key _ output cache
  exact (Cache.misses_store cache key output).ge

/-- a render whose output is not stored is a miss -/
theorem misses_lt_renderWithin {lib : Library} {chain : List String} {name : String} {slots : Slots} {t : Template}
    {key : Fingerprint} {cache : Cache} (hfind : lib.find? name = some t) (hmem : name ∉ chain)
    (hkey : Fingerprint.of name slots = .ok key) (hnone : cache.find? key = none) :
    cache.misses < ((lib.renderWithin chain name slots).on cache).2.misses := by
  have hle := lib.misses_le_renderWithin (chain ++ [name]) t slots cache.miss
  rw [renderWithin_cached hfind hmem hkey]
  rcases hon : (t.render (lib.renderWithin (chain ++ [name])) slots).on cache.miss with ⟨e | output, cache'⟩
  · rw [hon] at hle
    rw [Rendering.on_cached_miss_error hnone hon]
    exact hle
  · rw [hon] at hle
    rw [Rendering.on_cached_miss_ok hnone hon, Cache.misses_store]
    exact hle

end Library

namespace Engine

variable {engine after : Engine} {name output : String} {a b : Slots} {k : Fingerprint}

/-- what a render says about the cache of the engine it leaves -/
theorem on_of_render {result : Except Error String} (h : engine.render name a = (after, result)) :
    after.library = engine.library ∧
      (engine.library.renderWithin [] name a).on engine.cache = (result, after.cache) := by
  obtain ⟨rfl, rfl⟩ := Prod.mk.inj h
  exact ⟨rfl, rfl⟩

/-- a render that succeeded is answered from the cache the next time -/
theorem render_again (h : engine.render name a = (after, .ok output)) :
    after.render name a = ({ after with cache := after.cache.hit }, .ok output) := by
  obtain ⟨hlib, hon⟩ := on_of_render h
  obtain ⟨t, key, hfind, hmem, hkey, hstored⟩ := Library.on_renderWithin_ok hon
  unfold render rendering
  rw [hlib, Library.on_renderWithin_hit hfind hmem hkey hstored, ← hlib]

/-- other slots are not answered from it -/
theorem render_other (h : engine.render name a = (after, .ok output)) (hk : Fingerprint.of name b = .ok k)
    (hne : a ≠ b) (hnone : engine.cache.find? k = none) :
    after.cache.find? k = none ∧ after.cache.misses < (after.render name b).1.cache.misses := by
  obtain ⟨hlib, hon⟩ := on_of_render h
  obtain ⟨t, -, hfind, hmem, -, -⟩ := Library.on_renderWithin_ok hon
  have hkept : ((engine.library.renderWithin [] name a).on engine.cache).2.find? k = engine.cache.find? k :=
    Library.find?_renderWithin_of_ne hk hne engine.cache
  rw [hon, hnone] at hkept
  rw [← hlib] at hfind
  exact ⟨hkept, Library.misses_lt_renderWithin hfind hmem hk hkept⟩

/-- **When equal slots share an output.** Equal finite slots have the same fingerprint exactly if their zeros have the
same signs. If they have, a render that succeeded with the one is a hit with the other. If they have not, it stores
nothing for the other, whose render is a miss unless it was stored before. -/
theorem render_equal_slots (ha : a.Finite) (hb : b.Finite) (h : a.same b = true) (name : String) :
    ∃ j k, Fingerprint.of name a = .ok j ∧ Fingerprint.of name b = .ok k ∧
      (j.text = k.text ↔ a.zeroSigns = b.zeroSigns) ∧
      ∀ (engine after : Engine) (output : String), engine.render name a = (after, .ok output) →
        (a.zeroSigns = b.zeroSigns → after.render name b = ({ after with cache := after.cache.hit }, .ok output)) ∧
        (a.zeroSigns ≠ b.zeroSigns → engine.cache.find? k = none →
          after.cache.find? k = none ∧ after.cache.misses < (after.render name b).1.cache.misses) := by
  have hj := Fingerprint.of_finite ha name
  have hk := Fingerprint.of_finite hb name
  refine ⟨_, _, hj, hk, ?_, ?_⟩
  · rw [← Fingerprint.eq_iff_zeroSigns h hj hk, Fingerprint.mk.injEq]
  · intro engine after output hrender
    constructor
    · intro hsigns
      obtain rfl := (Slots.eq_iff_zeroSigns h).2 hsigns
      exact render_again hrender
    · intro hsigns hnone
      exact render_other hrender hk (mt (Slots.eq_iff_zeroSigns h).1 hsigns) hnone

def zeroSlot (negative : Bool) : Slots :=
  ⟨[("x", .number (.zero negative))], rfl⟩

/-- an engine with one template, which has no tags -/
def textEngine : Engine :=
  ofLibrary ⟨[⟨"t", "text", by decide⟩], by decide⟩

theorem render_textEngine (negative : Bool) :
    textEngine.render "t" (zeroSlot negative) =
      ((textEngine.render "t" (zeroSlot negative)).1, .ok "text") := by
  have hfind : textEngine.library.find? "t" = some ⟨"t", "text", by decide⟩ := by decide
  have hvalid : (zeroSlot negative).checkFinite = .ok () := by cases negative <;> rfl
  have hplain : textEngine.library.renderPlain [] "t" (zeroSlot negative) = .ok "text" :=
    Library.renderPlain_valid hfind List.not_mem_nil hvalid
  have hsound : textEngine.Sound := sound_ofLibrary _
  rw [← hplain, ← (sound_render hsound "t" (zeroSlot negative)).1]

/-- the two zeros: equal slots, no common fingerprint, and the template is rendered twice -/
theorem zeroSlot_not_shared :
    (zeroSlot false).Finite ∧ (zeroSlot true).Finite ∧ (zeroSlot false).same (zeroSlot true) = true ∧
      (¬ ∃ key, Fingerprint.of "t" (zeroSlot false) = .ok key ∧ Fingerprint.of "t" (zeroSlot true) = .ok key) ∧
      ∃ after, textEngine.render "t" (zeroSlot false) = (after, .ok "text") ∧
        after.cache.misses < (after.render "t" (zeroSlot true)).1.cache.misses := by
  have hfinite : ∀ negative, (zeroSlot negative).Finite := by decide
  have hne : zeroSlot false ≠ zeroSlot true := by
    intro h
    exact absurd (congrArg Slots.zeroSigns h) (by decide)
  refine ⟨hfinite false, hfinite true, by decide, ?_, _, render_textEngine false, ?_⟩
  · rintro ⟨key, hfirst, hsecond⟩
    exact hne (Fingerprint.of_injective hfirst hsecond).2
  · exact (render_other (render_textEngine false) (Fingerprint.of_finite (hfinite true) "t") hne rfl).2

/-- the same zero twice is a hit, the other zero a miss -/
theorem render_equal_slots_zeros :
    (∃ after, textEngine.render "t" (zeroSlot true) = (after, .ok "text") ∧
      after.render "t" (zeroSlot true) = ({ after with cache := after.cache.hit }, .ok "text")) ∧
    ∃ after, textEngine.render "t" (zeroSlot false) = (after, .ok "text") ∧
      after.cache.misses < (after.render "t" (zeroSlot true)).1.cache.misses := by
  have hfinite : ∀ negative, (zeroSlot negative).Finite := by decide
  obtain ⟨_, _, -, -, -, hsame⟩ := render_equal_slots (hfinite true) (hfinite true) (by decide) "t"
  obtain ⟨_, _, -, -, -, hother⟩ := render_equal_slots (hfinite false) (hfinite true) (by decide) "t"
  refine ⟨⟨_, render_textEngine true, ?_⟩, ⟨_, render_textEngine false, ?_⟩⟩
  · exact (hsame _ _ _ (render_textEngine true)).1 rfl
  · exact ((hother _ _ _ (render_textEngine false)).2 (by decide) rfl).2

end Engine

end BlockTemplates
