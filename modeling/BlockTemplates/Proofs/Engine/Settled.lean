/-
Caches that renders leave.

A cache that began empty and has only seen renders of one library is settled: it is sound, and with an output it holds
the outputs of all templates that were invoked for it (`Cache.Settled`). So a template whose output is stored, were it
rendered again, would be made of stored outputs only (`entries_render_of_holds`). An output is put into the cache when
the template's own invocations are there (`holds_of_renderSegments_ok`); `Cache.Settled.store` is the step.
-/
import BlockTemplates.Proofs.Engine.Persistence
import BlockTemplates.Proofs.Engine.Transparency

namespace BlockTemplates

/-! ## Settled caches -/

namespace Cache

theorem find?_of_entries {a b : Cache} (h : a.entries = b.entries) (key : Fingerprint) : a.find? key = b.find? key := by
  rw [find?, find?, h]

theorem not_mem_keys_of_find? {cache : Cache} {key : Fingerprint} (h : cache.find? key = none) :
    key ∉ cache.entries.map Prod.fst := by
  intro hmem
  obtain ⟨entry, hentry, rfl⟩ := List.mem_map.1 hmem
  have hne := List.lookup_eq_none_iff.1 h entry hentry
  simp at hne

/-- a cache as renders of a library leave it, if they began with nothing stored -/
structure Settled (cache : Cache) (lib : Library) : Prop where
  sound : cache.Sound lib
  /-- every key is the fingerprint of a render -/
  known : ∀ key output, cache.find? key = some output → ∃ name slots, Fingerprint.of name slots = .ok key
  /-- with an output, the outputs of what its template invokes are stored -/
  closed : ∀ name slots output t, cache.Holds name slots output → lib.find? name = some t →
    ∀ n scope, .invoke n scope ∈ t.segments → ∃ o, cache.Holds n (slots.within scope) o
  /-- no key is stored twice -/
  nodup : (cache.entries.map Prod.fst).Nodup

namespace Settled

variable {cache : Cache} {lib : Library}

theorem empty (lib : Library) : Cache.empty.Settled lib where
  sound := Sound.empty lib
  known := nofun
  closed := by
    rintro name slots output t ⟨key, -, hstored⟩
    cases hstored
  nodup := .nil

theorem hit (h : cache.Settled lib) : cache.hit.Settled lib :=
  ⟨h.sound, h.known, h.closed, h.nodup⟩

theorem miss (h : cache.Settled lib) : cache.miss.Settled lib :=
  ⟨h.sound, h.known, h.closed, h.nodup⟩

/-- an output may be stored if it is right and what its template invokes is stored -/
theorem store (h : cache.Settled lib) {name : String} {slots : Slots} {key : Fingerprint} {output : String}
    {t : Template} (hfind : lib.find? name = some t) (hkey : Fingerprint.of name slots = .ok key)
    (hnone : cache.find? key = none) (hplain : lib.renderPlain [] name slots = .ok output)
    (hinvoked : ∀ n scope, .invoke n scope ∈ t.segments → ∃ o, cache.Holds n (slots.within scope) o) :
    (cache.store key output).2.Settled lib := by
  have hsub := cache.subset_store key output
  have hnew : ∀ {key' output'}, (cache.store key output).2.find? key' = some output' →
      key' = key ∨ cache.find? key' = some output' := by
    intro key' output' hstored
    by_cases hne : key' = key
    · exact .inl hne
    · exact .inr (find?_store_of_ne cache key key' output hne ▸ hstored)
  refine ⟨(h.sound.store hkey hplain).2, ?_, ?_, ?_⟩
  · intro key' output' hstored
    rcases hnew hstored with rfl | hold
    · exact ⟨name, slots, hkey⟩
    · exact h.known key' output' hold
  · rintro name' slots' output' t' ⟨key', hkey', hstored⟩ hfind' n scope hmem
    have hheld : ∃ o, cache.Holds n (slots'.within scope) o := by
      rcases hnew hstored with rfl | hold
      · obtain ⟨rfl, rfl⟩ := Fingerprint.of_injective hkey' hkey
        obtain rfl : t = t' := Option.some.inj (hfind.symm.trans hfind')
        exact hinvoked n scope hmem
      · exact h.closed name' slots' output' t' ⟨key', hkey', hold⟩ hfind' n scope hmem
    obtain ⟨o, ho⟩ := hheld
    exact ⟨o, ho.of_subset hsub⟩
  · rw [store_of_none hnone]
    exact List.nodup_cons.2 ⟨not_mem_keys_of_find? hnone, h.nodup⟩

theorem mem_entries_iff (h : cache.Settled lib) {key : Fingerprint} {output : String} :
    (key, output) ∈ cache.entries ↔ cache.find? key = some output := by
  constructor
  · intro hmem
    obtain ⟨before, after, hentries⟩ := List.append_of_mem hmem
    have hnodup := h.nodup
    rw [hentries, List.map_append, List.nodup_append] at hnodup
    refine List.lookup_eq_some_iff.2 ⟨before, after, hentries, fun entry hentry => ?_⟩
    have hne := hnodup.2.2 entry.1 (List.mem_map_of_mem hentry) key List.mem_cons_self
    simpa using hne.symm
  · intro hstored
    obtain ⟨before, after, hentries, -⟩ := List.lookup_eq_some_iff.1 hstored
    rw [hentries]
    exact List.mem_append_right before List.mem_cons_self

end Settled

end Cache

/-! ## What is rendered again, and what has been rendered -/

namespace Library

variable {lib : Library} {chain : List String} {slots : Slots}

/-- after segments have been written, the outputs of what they invoke are stored -/
theorem holds_of_renderSegments_ok {segments : List Segment} {cache cache' : Cache} {output : String}
    (h : (renderSegments (lib.renderWithin chain) slots segments : Rendering String).on cache = (.ok output, cache')) :
    ∀ n scope, .invoke n scope ∈ segments → ∃ o, cache'.Holds n (slots.within scope) o := by
  induction segments generalizing cache output with
  | nil => exact fun _ _ hmem => nomatch hmem
  | cons segment rest ih =>
    rcases hfirst : (segment.render (lib.renderWithin chain) slots : Rendering String).on cache with
      ⟨e | first, between⟩
    · rw [Rendering.on_renderSegments_cons_error hfirst] at h
      cases h
    rw [Rendering.on_renderSegments_cons_ok hfirst] at h
    have hsub := lib.subset_renderSegments chain slots rest between
    rcases hothers : (renderSegments (lib.renderWithin chain) slots rest : Rendering String).on between with
      ⟨e | others, last⟩
    · rw [hothers] at h
      cases h
    · rw [hothers] at h hsub
      cases h
      intro n scope hmem
      rcases List.mem_cons.1 hmem with rfl | hmem
      · obtain ⟨-, key, -, -, hkey, hstored⟩ := on_renderWithin_ok hfirst
        exact ⟨first, key, hkey, hsub key first hstored⟩
      · exact ih hothers n scope hmem

/-- a template is rendered from stored outputs, if those of what it invokes are stored -/
theorem entries_render_of_holds {t : Template} {cache : Cache}
    (h : ∀ n scope, .invoke n scope ∈ t.segments → ∃ o, cache.Holds n (slots.within scope) o) :
    ((t.render (lib.renderWithin chain) slots : Rendering String).on cache).2.entries = cache.entries := by
  have hcounting : Cache.Counting fun a b => a.entries = cache.entries → b.entries = cache.entries :=
    ⟨fun _ => id, fun hab hbc h => hbc (hab h), fun _ => id, fun _ => id⟩
  refine renderSegments_congr (g := lib.renderWithin chain) (b := slots) (Rendering.sequential_follows hcounting)
    t.segments (fun _ _ => rfl) (fun n scope hmem now hnow => ?_) cache rfl
  obtain ⟨o, key, hkey, hstored⟩ := h n scope hmem
  rcases lib.renderWithin_cases chain n (slots.within scope) with ⟨e, hthrow⟩ | ⟨_, key', -, -, hkey', hcached⟩
  · rw [hthrow]
    exact hnow
  · obtain rfl : key' = key := Except.ok.inj (hkey'.symm.trans hkey)
    rw [← Cache.find?_of_entries hnow] at hstored
    rw [hcached, Rendering.on_cached_hit hstored]
    exact hnow

end Library

end BlockTemplates
