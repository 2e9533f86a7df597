/-
The order of renders is not observed.

What a render adds to a settled cache does not depend on what is in it. Every stored output accounts for one miss, and
for one lookup for each invocation of its template, since a template that is rendered to its end is rendered once. What
a render counts beyond that is its own: a successful one counts the lookup of its name, a failed one also the lookups
and misses of the templates it gave up, which no cache spares it. `Work` is what is added, and `does_renderWithin` says
that a render does the same work on every settled cache. The work of renders in sequence is the sum, so any order gives
the same: `renderAll_perm`.
-/
import BlockTemplates.Proofs.Engine.Settled
import BlockTemplates.Proofs.Engine.Sharing
import BlockTemplates.Proofs.Engine.Success
import Mathlib.Algebra.BigOperators.Group.List.Basic

namespace BlockTemplates

/-! ## Balances -/

/-- a count of the invocations of the template that a fingerprint was made for -/
def Library.Counts (lib : Library) (count : Fingerprint → Nat) : Prop :=
  ∀ name slots key t, Fingerprint.of name slots = .ok key → lib.find? name = some t →
    count key = t.dependencies.length

/-- there is such a count, as a fingerprint is made for one name only -/
theorem Library.exists_counts (lib : Library) : ∃ count, lib.Counts count := by
  have hkey : ∀ key, ∃ k, ∀ name slots t, Fingerprint.of name slots = .ok key → lib.find? name = some t →
      k = t.dependencies.length := by
    intro key
    by_cases h : ∃ name slots t, Fingerprint.of name slots = .ok key ∧ lib.find? name = some t
    · obtain ⟨name, slots, t, hof, hfind⟩ := h
      refine ⟨t.dependencies.length, fun name' slots' t' hof' hfind' => ?_⟩
      obtain ⟨rfl, -⟩ := Fingerprint.of_injective hof hof'
      obtain rfl : t = t' := Option.some.inj (hfind.symm.trans hfind')
      rfl
    · exact ⟨0, fun name slots t hof hfind => absurd ⟨name, slots, t, hof, hfind⟩ h⟩
  choose count hcount using hkey
  exact ⟨count, fun name slots key t => hcount key name slots t⟩

namespace Cache

/-- the lookups that no stored output accounts for -/
def lookupBalance (count : Fingerprint → Nat) (cache : Cache) : Int :=
  cache.hits + cache.misses - (cache.entries.map fun entry => (count entry.1 : Int)).sum

/-- the misses that no stored output accounts for -/
def missBalance (cache : Cache) : Int :=
  cache.misses - cache.entries.length

end Cache

/-! ## Work -/

/-- what a rendering adds to a cache -/
structure Work where
  /-- the fingerprints that have outputs afterwards -/
  stores : Fingerprint → Prop
  /-- what it adds to the balance of lookups -/
  lookups : Int
  /-- what it adds to the balance of misses -/
  misses : Int

namespace Work

variable {count : Fingerprint → Nat}

def none : Work :=
  ⟨fun _ => False, 0, 0⟩

def hit : Work :=
  ⟨fun _ => False, 1, 0⟩

def miss : Work :=
  ⟨fun _ => False, 1, 1⟩

/-- what a new output adds: it accounts for the miss of its name, and for the lookups of what its template invokes -/
def store (count : Fingerprint → Nat) (key : Fingerprint) : Work :=
  ⟨fun other => other = key, -(count key : Int), -1⟩

def followedBy (first second : Work) : Work :=
  ⟨fun key => first.stores key ∨ second.stores key, first.lookups + second.lookups, first.misses + second.misses⟩

/-- the work of a render that ends with an output, `work` being that of its template -/
def completed (work : Work) (key : Fingerprint) : Work :=
  ⟨fun other => work.stores other ∨ other = key, 1, 0⟩

def total (works : List Work) : Work :=
  works.foldr followedBy none

/-- a work has been done between two caches -/
structure Done (count : Fingerprint → Nat) (work : Work) (cache later : Cache) : Prop where
  stores : ∀ key, (later.find? key).isSome ↔ (cache.find? key).isSome ∨ work.stores key
  lookups : later.lookupBalance count = cache.lookupBalance count + work.lookups
  misses : later.missBalance = cache.missBalance + work.misses

theorem done_none (count : Fingerprint → Nat) (cache : Cache) : none.Done count cache cache where
  stores key := by simp [none]
  lookups := (add_zero _).symm
  misses := (add_zero _).symm

theorem Done.followedBy {first second : Work} {a b c : Cache} (hab : first.Done count a b)
    (hbc : second.Done count b c) : (first.followedBy second).Done count a c where
  stores key := by rw [hbc.stores, hab.stores, or_assoc]; rfl
  lookups := by rw [hbc.lookups, hab.lookups, add_assoc]; rfl
  misses := by rw [hbc.misses, hab.misses, add_assoc]; rfl

theorem done_hit (count : Fingerprint → Nat) (cache : Cache) : hit.Done count cache cache.hit where
  stores key := (or_iff_left id).symm
  lookups := by simp only [Cache.lookupBalance, Cache.hit, hit]; omega
  misses := (add_zero _).symm

theorem done_miss (count : Fingerprint → Nat) (cache : Cache) : miss.Done count cache cache.miss where
  stores key := (or_iff_left id).symm
  lookups := by simp only [Cache.lookupBalance, Cache.miss, miss]; omega
  misses := by simp only [Cache.missBalance, Cache.miss, miss]; omega

theorem done_store (count : Fingerprint → Nat) {cache : Cache} {key : Fingerprint} (h : cache.find? key = .none)
    (output : String) : (store count key).Done count cache (cache.store key output).2 where
  stores other := by
    by_cases hne : other = key
    · subst hne
      simp [Cache.find?_store, store]
    · simp [Cache.find?_store_of_ne cache key other output hne, hne, store]
  lookups := by
    rw [Cache.store_of_none h]
    simp only [Cache.lookupBalance, store, List.map_cons, List.sum_cons]
    omega
  misses := by
    rw [Cache.store_of_none h]
    simp only [Cache.missBalance, store, List.length_cons]
    omega

/-- of a miss, the template and the new output only the lookup of the name is left -/
theorem completed_eq {work : Work} {key : Fingerprint} (hlookups : work.lookups = count key)
    (hmisses : work.misses = 0) : (miss.followedBy work).followedBy (store count key) = work.completed key := by
  simp [followedBy, miss, store, completed, hlookups, hmisses]

/-- a hit does the same work as a miss, if the template would store nothing new -/
theorem done_completed_hit {work : Work} {key : Fingerprint} {cache : Cache} {output : String}
    (hstored : cache.find? key = some output) (hwork : ∀ other, work.stores other → (cache.find? other).isSome) :
    (work.completed key).Done count cache cache.hit where
  stores other := by
    refine ⟨.inl, fun h => ?_⟩
    rcases h with h | h | rfl
    · exact h
    · exact hwork other h
    · exact Option.isSome_iff_exists.2 ⟨output, hstored⟩
  lookups := (done_hit count cache).lookups
  misses := (done_hit count cache).misses

theorem followedBy_left_comm (a b c : Work) : a.followedBy (b.followedBy c) = b.followedBy (a.followedBy c) := by
  have hstores : ∀ key, (a.stores key ∨ b.stores key ∨ c.stores key) = (b.stores key ∨ a.stores key ∨ c.stores key) :=
    fun key => propext or_left_comm
  simp only [followedBy, hstores, add_left_comm]

theorem total_perm {works works' : List Work} (h : works.Perm works') : total works = total works' := by
  have : LeftCommutative followedBy := ⟨followedBy_left_comm⟩
  exact h.foldr_eq none

/-- settled caches after the same work have the same outputs, hits and misses -/
theorem Done.unique {lib : Library} {work : Work} {cache a b : Cache} (hsettled : a.Settled lib)
    (hsettled' : b.Settled lib) (ha : work.Done count cache a) (hb : work.Done count cache b) :
    a.entries.Perm b.entries ∧ a.hits = b.hits ∧ a.misses = b.misses := by
  have hsub : ∀ {a b : Cache}, a.Settled lib → b.Settled lib → work.Done count cache a → work.Done count cache b →
      ∀ key output, a.find? key = some output → b.find? key = some output := by
    intro a b hsettled hsettled' ha hb key output hstored
    have hsome : (b.find? key).isSome := by
      rw [hb.stores, ← ha.stores, hstored]
      rfl
    obtain ⟨output', hstored'⟩ := Option.isSome_iff_exists.1 hsome
    obtain ⟨name, slots, hkey⟩ := hsettled.known key output hstored
    have hplain := hsettled.sound name slots key output hkey hstored
    have hplain' := hsettled'.sound name slots key output' hkey hstored'
    rw [hstored', Except.ok.inj (hplain.symm.trans hplain')]
  have hperm : a.entries.Perm b.entries := by
    refine (List.perm_ext_iff_of_nodup hsettled.nodup.of_map hsettled'.nodup.of_map).2 fun entry => ?_
    rw [hsettled.mem_entries_iff, hsettled'.mem_entries_iff]
    exact ⟨hsub hsettled hsettled' ha hb _ _, hsub hsettled' hsettled hb ha _ _⟩
  have hlength := hperm.length_eq
  have hsum := (hperm.map fun entry => (count entry.1 : Int)).sum_eq
  have hmisses := ha.misses.trans hb.misses.symm
  have hlookups := ha.lookups.trans hb.lookups.symm
  simp only [Cache.missBalance] at hmisses
  simp only [Cache.lookupBalance] at hlookups
  refine ⟨hperm, ?_, ?_⟩ <;> omega

end Work

/-! ## The work of a rendering -/

namespace Rendering

/-- on every settled cache a rendering has the outcome `x`, leaves a settled cache and does the same work; if it
succeeds, `n` lookups are its own, and no miss -/
def Does (lib : Library) (count : Fingerprint → Nat) (r : Rendering String) (n : Nat)
    (x : Except Error String) : Prop :=
  ∃ work : Work, (∀ s, x = .ok s → work.lookups = n ∧ work.misses = 0) ∧
    ∀ cache : Cache, cache.Settled lib →
      (r.on cache).1 = x ∧ (r.on cache).2.Settled lib ∧ work.Done count cache (r.on cache).2

variable {lib : Library} {count : Fingerprint → Nat}

theorem does_throw (e : Error) (n : Nat) : Does lib count (throw e) n (.error e) :=
  ⟨.none, nofun, fun cache h => ⟨rfl, h, Work.done_none count cache⟩⟩

theorem does_pure (s : String) : Does lib count (pure s) 0 (.ok s) :=
  ⟨.none, fun _ _ => ⟨rfl, rfl⟩, fun cache h => ⟨rfl, h, Work.done_none count cache⟩⟩

theorem does_bind {r : Rendering String} {f : String → Rendering String} {n m : Nat} {x : Except Error String}
    {g : String → Except Error String} (hr : Does lib count r n x) (hf : ∀ s, Does lib count (f s) m (g s)) :
    Does lib count (r >>= f) (n + m) (x >>= g) := by
  obtain ⟨first, hown, hfirst⟩ := hr
  cases x with
  | error e =>
    refine ⟨first, nofun, fun cache h => ?_⟩
    obtain ⟨hx, hsettled, hdone⟩ := hfirst cache h
    rw [on_bind_error (Prod.ext hx rfl)]
    exact ⟨rfl, hsettled, hdone⟩
  | ok s =>
    obtain ⟨second, hown', hsecond⟩ := hf s
    obtain ⟨hlookups, hmisses⟩ := hown s rfl
    refine ⟨first.followedBy second, fun s' hs' => ?_, fun cache h => ?_⟩
    · obtain ⟨hlookups', hmisses'⟩ := hown' s' hs'
      simp only [Work.followedBy]
      omega
    · obtain ⟨hx, hsettled, hdone⟩ := hfirst cache h
      obtain ⟨hx', hsettled', hdone'⟩ := hsecond _ hsettled
      rw [on_bind_ok (Prod.ext hx rfl)]
      exact ⟨hx', hsettled', hdone.followedBy hdone'⟩

/-- segments that are written have looked up what they invoke -/
theorem does_renderSegments {f : String → Slots → Rendering String} {g : String → Slots → Except Error String}
    {slots : Slots} {segments : List Segment}
    (h : ∀ n ∈ segments.filterMap Segment.invoked?, ∀ s, Does lib count (f n s) 1 (g n s)) :
    Does lib count (renderSegments f slots segments) (segments.filterMap Segment.invoked?).length
      (renderSegments g slots segments) := by
  induction segments with
  | nil => exact does_pure ""
  | cons segment rest ih =>
    have hcons : ∀ {k m : Nat}, Does lib count (segment.render f slots) k (segment.render g slots) →
        Does lib count (renderSegments f slots rest) m (renderSegments g slots rest) →
          Does lib count (renderSegments f slots (segment :: rest)) (k + (m + 0))
            (renderSegments g slots (segment :: rest)) :=
      fun hfirst hrest => does_bind hfirst fun first => does_bind hrest fun others => does_pure (first ++ others)
    cases segment with
    | text cs =>
      have hrest := hcons (does_pure cs) (ih h)
      rwa [Nat.zero_add] at hrest
    | slot path =>
      have hrest := hcons (does_pure (displayed (slots.resolve path))) (ih h)
      rwa [Nat.zero_add] at hrest
    | invoke n scope =>
      have hrest := hcons (h n List.mem_cons_self (slots.within scope))
        (ih fun n hn => h n (List.mem_cons_of_mem _ hn))
      rwa [Nat.add_comm] at hrest

variable {chain : List String} {name : String} {slots : Slots} {key : Fingerprint} {t : Template}

/-- a render that fails does not find its output, so it looks up what it looks up on an empty cache -/
theorem does_cached_error {r : Rendering String} {n : Nat} {e : Error} (hkey : Fingerprint.of name slots = .ok key)
    (hplain : ∀ output, lib.renderPlain [] name slots ≠ .ok output) (hr : Does lib count r n (.error e)) :
    Does lib count (cached key r) 1 (.error e) := by
  obtain ⟨work, -, hdoes⟩ := hr
  refine ⟨Work.miss.followedBy work, nofun, fun cache h => ?_⟩
  have hnone : cache.find? key = none := by
    rcases hstored : cache.find? key with _ | output
    · rfl
    · exact absurd (h.sound name slots key output hkey hstored) (hplain output)
  obtain ⟨hx, hsettled, hdone⟩ := hdoes cache.miss h.miss
  rw [on_cached_miss_error hnone (Prod.ext hx rfl)]
  exact ⟨rfl, hsettled, (Work.done_miss count cache).followedBy hdone⟩

/-- a render that succeeds stores its output, and what its template invokes, unless this is stored already -/
theorem does_cached_ok (hcount : lib.Counts count) (hfind : lib.find? name = some t)
    (hkey : Fingerprint.of name slots = .ok key) {output : String} (hplain : lib.renderPlain [] name slots = .ok output)
    (hmem : name ∈ chain)
    (hr : Does lib count (t.render (lib.renderWithin chain) slots) t.dependencies.length (.ok output)) :
    Does lib count (cached key (t.render (lib.renderWithin chain) slots)) 1 (.ok output) := by
  obtain ⟨work, hown, hdoes⟩ := hr
  obtain ⟨hlookups, hmisses⟩ := hown output rfl
  have hnumber : count key = t.dependencies.length := hcount name slots key t hkey hfind
  refine ⟨work.completed key, fun _ _ => ⟨rfl, rfl⟩, fun cache h => ?_⟩
  rcases hstored : cache.find? key with _ | old
  · obtain ⟨hx, hsettled, hdone⟩ := hdoes cache.miss h.miss
    have hkept : ((t.render (lib.renderWithin chain) slots : Rendering String).on cache.miss).2.find? key =
        cache.miss.find? key := Library.find?_render_of_mem_chain hmem hkey t slots cache.miss
    rcases hon : (t.render (lib.renderWithin chain) slots : Rendering String).on cache.miss with ⟨result, between⟩
    rw [hon] at hx hsettled hdone hkept
    obtain rfl : result = .ok output := hx
    have hnone : between.find? key = none := hkept.trans hstored
    rw [on_cached_miss_ok hstored hon, ← Work.completed_eq (hnumber ▸ hlookups) hmisses]
    refine ⟨congrArg Except.ok (hsettled.sound.store hkey hplain).1, ?_, ?_⟩
    · exact hsettled.store hfind hkey hnone hplain (Library.holds_of_renderSegments_ok hon)
    · exact ((Work.done_miss count cache).followedBy hdone).followedBy (Work.done_store count hnone output)
  · -- what the template invokes is stored as well, so rendering it again would store nothing
    have hsame : ((t.render (lib.renderWithin chain) slots : Rendering String).on cache).2.entries = cache.entries :=
      Library.entries_render_of_holds (h.closed name slots old t ⟨key, hkey, hstored⟩ hfind)
    have hwork : ∀ other, work.stores other → (cache.find? other).isSome := by
      intro other hother
      rw [← Cache.find?_of_entries hsame]
      exact ((hdoes cache h).2.2.stores other).2 (.inr hother)
    rw [on_cached_hit hstored]
    exact ⟨(h.sound name slots key old hkey hstored).symm.trans hplain, h.hit, Work.done_completed_hit hstored hwork⟩

end Rendering

/-- below a chain that reaches the name, a render does the same work on every settled cache -/
theorem Library.does_renderWithin {lib : Library} {count : Fingerprint → Nat} (hcount : lib.Counts count)
    (chain : List String) (name : String) (slots : Slots) (hchain : ∀ x ∈ chain, lib.ReachesBelow x name) :
    Rendering.Does lib count (lib.renderWithin chain name slots) 1 (lib.renderPlain chain name slots) := by
  induction chain, name, slots using Library.renderWithin.induct lib with
  | case1 chain name slots hfind =>
    rw [renderWithin_missing hfind, renderPlain_missing hfind]
    exact Rendering.does_throw _ 1
  | case2 chain name slots t hfind hmem =>
    rw [renderWithin_active hfind hmem, renderPlain_active hfind hmem]
    exact Rendering.does_throw _ 1
  | case3 chain name slots t hfind hmem e hkey =>
    rw [renderWithin_invalid hfind hmem hkey, renderPlain_invalid hfind hmem (Fingerprint.checkFinite_of_error hkey)]
    exact Rendering.does_throw _ 1
  | case4 chain name slots t hfind hmem key hkey ih =>
    have hnested : ∀ n ∈ t.dependencies, ∀ s, Rendering.Does lib count (lib.renderWithin (chain ++ [name]) n s) 1
        (lib.renderPlain (chain ++ [name]) n s) :=
      fun n hn s => ih n s (reachesBelow_of_mem_chain hchain ⟨t, hfind, hn⟩)
    have hvalid : slots.checkFinite = .ok () := Slots.checkFinite_eq_ok_iff.2 (Fingerprint.of_eq_ok_iff.1 hkey).1
    have hrender : Rendering.Does lib count (t.render (lib.renderWithin (chain ++ [name])) slots)
        t.dependencies.length (lib.renderPlain chain name slots) := by
      rw [renderPlain_valid hfind hmem hvalid]
      exact Rendering.does_renderSegments hnested
    rw [renderWithin_cached hfind hmem hkey]
    rcases hplain : lib.renderPlain chain name slots with e | output
    · rw [hplain] at hrender
      refine Rendering.does_cached_error hkey (fun output habove => ?_) hrender
      rw [renderPlain_ok_of_above hchain habove] at hplain
      cases hplain
    · rw [hplain] at hrender
      have habove : lib.renderPlain [] name slots = .ok output :=
        renderPlain_ok_of_subset (Subset.refl lib) hplain fun _ _ => List.not_mem_nil
      have hown : name ∈ chain ++ [name] := List.mem_append_right chain (List.mem_singleton.2 rfl)
      exact Rendering.does_cached_ok hcount hfind hkey habove hown hrender

/-! ## Renders in sequence -/

namespace Engine

/-- every render has its work; renders in sequence on a settled engine do the works of all -/
theorem done_renderAll (lib : Library) {count : Fingerprint → Nat} (hcount : lib.Counts count) :
    ∃ work : String × Slots → Work, ∀ (engine : Engine) (calls : List (String × Slots)), engine.library = lib →
      engine.cache.Settled lib → (engine.renderAll calls).1.cache.Settled lib ∧
        (Work.total (calls.map work)).Done count engine.cache (engine.renderAll calls).1.cache := by
  have hcall : ∀ call : String × Slots, ∃ work : Work, ∀ cache : Cache, cache.Settled lib →
      ((lib.renderWithin [] call.1 call.2).on cache).2.Settled lib ∧
        work.Done count cache ((lib.renderWithin [] call.1 call.2).on cache).2 := by
    intro call
    obtain ⟨work, -, hdoes⟩ := Library.does_renderWithin hcount [] call.1 call.2 fun _ hx => nomatch hx
    exact ⟨work, fun cache h => (hdoes cache h).2⟩
  choose work hwork using hcall
  refine ⟨work, fun engine calls hlib h => ?_⟩
  induction calls generalizing engine with
  | nil => exact ⟨h, Work.done_none count engine.cache⟩
  | cons call calls ih =>
    subst hlib
    obtain ⟨hsettled, hdone⟩ := hwork call engine.cache h
    obtain ⟨hsettled', hdone'⟩ := ih (engine.render call.1 call.2).1 rfl hsettled
    exact ⟨hsettled', hdone.followedBy hdone'⟩

/-- **The order of renders is not observed.** On a fresh engine, each of some renders, failed or not, has the outcome it
has alone on a fresh engine, in whatever order they are made; and at the end the stored outputs with their fingerprints,
the hits and the misses are the same. -/
theorem renderAll_perm (lib : Library) {calls calls' : List (String × Slots)} (h : calls.Perm calls') :
    ((ofLibrary lib).renderAll calls).2 = calls.map (fun call => ((ofLibrary lib).render call.1 call.2).2) ∧
    ((ofLibrary lib).renderAll calls').2 = calls'.map (fun call => ((ofLibrary lib).render call.1 call.2).2) ∧
    ((ofLibrary lib).renderAll calls).1.cache.entries.Perm ((ofLibrary lib).renderAll calls').1.cache.entries ∧
    ((ofLibrary lib).renderAll calls).1.cache.hits = ((ofLibrary lib).renderAll calls').1.cache.hits ∧
    ((ofLibrary lib).renderAll calls).1.cache.misses = ((ofLibrary lib).renderAll calls').1.cache.misses := by
  have hresults : ∀ calls, ((ofLibrary lib).renderAll calls).2 =
      calls.map fun call => ((ofLibrary lib).render call.1 call.2).2 := by
    intro calls
    rw [sound_renderAll (sound_ofLibrary lib)]
    refine List.map_congr_left fun call _ => ?_
    exact (sound_render (sound_ofLibrary lib) call.1 call.2).1.symm
  obtain ⟨count, hcount⟩ := lib.exists_counts
  obtain ⟨work, hwork⟩ := done_renderAll lib hcount
  obtain ⟨hsettled, hdone⟩ := hwork (ofLibrary lib) calls rfl (Cache.Settled.empty lib)
  obtain ⟨hsettled', hdone'⟩ := hwork (ofLibrary lib) calls' rfl (Cache.Settled.empty lib)
  rw [← Work.total_perm (h.map work)] at hdone'
  exact ⟨hresults calls, hresults calls', hdone.unique hsettled hsettled' hdone'⟩

/-- renders of a page and its parts, of which some fail -/
def diamondCalls : List (String × Slots) :=
  [("page", siteSlots), ("gap", Slots.empty), ("loop", siteSlots), ("logo", siteSlots), ("page", Slots.empty)]

/-- the page, rendered first, stores the output of its logo; in the other order the page finds it -/
theorem renderAll_perm_diamond :
    diamondCalls.Perm diamondCalls.reverse ∧
      ((ofLibrary diamondLibrary).renderAll diamondCalls).1.cache.entries.Perm
        ((ofLibrary diamondLibrary).renderAll diamondCalls.reverse).1.cache.entries ∧
      ((ofLibrary diamondLibrary).renderAll diamondCalls).1.cache.hits =
        ((ofLibrary diamondLibrary).renderAll diamondCalls.reverse).1.cache.hits ∧
      ((ofLibrary diamondLibrary).renderAll diamondCalls).1.cache.misses =
        ((ofLibrary diamondLibrary).renderAll diamondCalls.reverse).1.cache.misses := by
  have hperm : diamondCalls.Perm diamondCalls.reverse := diamondCalls.reverse_perm.symm
  obtain ⟨-, -, hcache⟩ := renderAll_perm diamondLibrary hperm
  exact ⟨hperm, hcache⟩

end Engine

end BlockTemplates
