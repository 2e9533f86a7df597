/-
The accounts of the cache.

A miss is counted when the body of a template is begun, and an output is stored when it is completed. In between, other
renders may do the same any number of times; but nothing is stored for the templates that are being rendered
(`Moment.Pending`), so every completed body makes a new entry. So at every moment the misses exceed the entries by the
bodies that are on the stack and those that have been given up (`Moment.Balanced`): `render_accounts`.

`CountedSteps` counts among the steps of a render those that do something, as beginning or completing a body.
-/
import BlockTemplates.Proofs.Engine.Fingerprint
import BlockTemplates.Proofs.Engine.Persistence

namespace BlockTemplates

/-! ## Counting steps -/

/-- steps of a render, of which `n` do `P` -/
inductive Library.CountedSteps (lib : Library) (P : Moment → Moment → Prop) (first : Moment) : Nat → Moment → Prop where
  | refl : CountedSteps lib P first 0 first
  | counted {n m m'} (h : CountedSteps lib P first n m) (hstep : lib.Step m m') (hP : P m m') :
    CountedSteps lib P first (n + 1) m'
  | other {n m m'} (h : CountedSteps lib P first n m) (hstep : lib.Step m m') (hP : ¬ P m m') :
    CountedSteps lib P first n m'

theorem Library.Steps.exists_counted {lib : Library} {first m : Moment} (h : lib.Steps first m)
    (P : Moment → Moment → Prop) : ∃ n, lib.CountedSteps P first n m := by
  induction h with
  | refl => exact ⟨0, .refl⟩
  | @tail m m' _ hstep ih =>
    obtain ⟨n, hn⟩ := ih
    by_cases hP : P m m'
    · exact ⟨n + 1, hn.counted hstep hP⟩
    · exact ⟨n, hn.other hstep hP⟩

theorem Library.CountedSteps.steps {lib : Library} {P : Moment → Moment → Prop} {first m : Moment} {n : Nat}
    (h : lib.CountedSteps P first n m) : lib.Steps first m := by
  induction h with
  | refl => exact .refl
  | counted _ hstep _ ih => exact ih.tail hstep
  | other _ hstep _ ih => exact ih.tail hstep

namespace Moment

/-- the body of a template is begun: it goes on the stack -/
def Begins (m m' : Moment) : Prop :=
  m.frames.length < m'.frames.length

/-- the body of a template is completed: it goes from the stack, with an output -/
def Completes (m m' : Moment) : Prop :=
  m'.frames.length < m.frames.length ∧ ∃ name slots output, m'.control = .back name slots (.ok output)

end Moment

/-! ## Templates that are being rendered -/

/-- below the names of `above`, the chain is made of the names of the templates that are being rendered, all different,
and nothing is stored for them -/
structure Moment.Pending (above : List String) (m : Moment) : Prop where
  chain_eq : m.chain = above ++ (m.frames.map Frame.name).reverse
  nodup : (m.frames.map Frame.name).Nodup
  absent : ∀ f ∈ m.frames, m.cache.find? f.key = none

namespace Moment

variable {lib : Library} {above : List String} {m m' : Moment}

theorem pending_start (chain : List String) (name : String) (slots : Slots) (cache : Cache) :
    (start chain name slots cache).Pending chain :=
  ⟨(List.append_nil chain).symm, .nil, nofun⟩

theorem Pending.step (h : m.Pending above) (hrecorded : m.Recorded lib) (hstep : lib.Step m m') :
    m'.Pending above := by
  obtain ⟨hchain, hnodup, habsent⟩ := h
  have hpop : ∀ {frame : Frame} {frames : List Frame} {chain : List String},
      chain = above ++ ((frame :: frames).map Frame.name).reverse →
        chain.dropLast = above ++ (frames.map Frame.name).reverse := by
    intro frame frames chain hchain
    rw [hchain, List.map_cons, List.reverse_cons, ← List.append_assoc, List.dropLast_concat]
  cases hstep with
  | @miss frames chain cache name slots t key hfind hmem hkey hstored =>
    have hfresh : name ∉ frames.map Frame.name := by
      intro hname
      refine hmem ?_
      rw [show chain = above ++ (frames.map Frame.name).reverse from hchain]
      exact List.mem_append_right above (List.mem_reverse.2 hname)
    refine ⟨?_, List.nodup_cons.2 ⟨hfresh, hnodup⟩, List.forall_mem_cons.2 ⟨hstored, habsent⟩⟩
    rw [List.map_cons, List.reverse_cons, ← List.append_assoc]
    exact congrArg (· ++ [name]) hchain
  | text | slot | invoke | resume =>
    exact ⟨hchain, hnodup, List.forall_mem_cons.2 (List.forall_mem_cons.1 habsent)⟩
  | fail => exact ⟨hpop hchain, (List.nodup_cons.1 hnodup).2, (List.forall_mem_cons.1 habsent).2⟩
  | @finish frames chain cache name slots key output =>
    refine ⟨hpop hchain, (List.nodup_cons.1 hnodup).2, fun f hf => ?_⟩
    -- the fingerprint of a template with another name is another one
    have hne : f.key ≠ key := by
      intro he
      have hkey := (hrecorded.frames f (List.mem_cons_of_mem _ hf)).2
      have hown := (hrecorded.frames _ List.mem_cons_self).2
      rw [he] at hkey
      obtain ⟨hname, -⟩ := Fingerprint.of_injective hkey hown
      exact (List.nodup_cons.1 hnodup).1 (hname ▸ List.mem_map_of_mem hf)
    exact (Cache.find?_store_of_ne cache key f.key output hne).trans (habsent f (List.mem_cons_of_mem _ hf))
  | _ => exact ⟨hchain, hnodup, habsent⟩

theorem pending_of_steps (h : m.Pending above) (hrecorded : m.Recorded lib) (hsteps : lib.Steps m m') :
    m'.Pending above := by
  induction hsteps with
  | refl => exact h
  | tail hsteps hstep ih => exact ih.step (recorded_of_steps hrecorded hsteps) hstep

end Moment

/-! ## Misses and entries -/

namespace Library

variable {lib : Library} {above : List String} {first m m' : Moment} {n : Nat}

/-- a miss is counted when a body is begun -/
theorem Step.misses_of_begins (h : lib.Step m m') (hbegins : m.Begins m') :
    m'.cache.misses = m.cache.misses + 1 := by
  unfold Moment.Begins at hbegins
  cases h with
  | miss => rfl
  | fail => exact absurd hbegins (Nat.not_lt.2 (Nat.le_succ _))
  | finish => exact absurd hbegins (Nat.not_lt.2 (Nat.le_succ _))
  | _ => exact absurd hbegins (lt_irrefl _)

theorem Step.misses_of_not_begins (h : lib.Step m m') (hbegins : ¬ m.Begins m') :
    m'.cache.misses = m.cache.misses := by
  cases h with
  | miss => exact absurd (Nat.lt_succ_self _) hbegins
  | finish => exact Cache.misses_store _ _ _
  | _ => rfl

/-- the output of a completed body is stored where nothing is -/
theorem Step.stores (h : lib.Step m m') (hpending : m.Pending above) (hrecorded : m.Recorded lib)
    (hcompletes : m.Completes m') :
    ∃ n s key output, m'.control = .back n s (.ok output) ∧ Fingerprint.of n s = .ok key ∧
      m.cache.find? key = none ∧ m'.cache = (m.cache.store key output).2 := by
  obtain ⟨hpops, n, s, output, hback⟩ := hcompletes
  cases h with
  | @finish frames chain cache name slots key output' =>
    have hnone : cache.find? key = none := hpending.absent _ List.mem_cons_self
    refine ⟨name, slots, key, output', ?_, (hrecorded.frames _ List.mem_cons_self).2, hnone, rfl⟩
    rw [Cache.store_of_none hnone]
  | fail => cases hback
  | miss => cases hback
  | _ => exact absurd hpops (lt_irrefl _)

/-- a step that completes no body leaves the entries as they are -/
theorem Step.entries_of_not_completes (h : lib.Step m m') (hcompletes : ¬ m.Completes m') :
    m'.cache.entries = m.cache.entries := by
  cases h with
  | finish => exact absurd ⟨Nat.lt_succ_self _, _, _, _, rfl⟩ hcompletes
  | _ => rfl

theorem CountedSteps.misses (h : lib.CountedSteps Moment.Begins first n m) :
    m.cache.misses = first.cache.misses + n := by
  induction h with
  | refl => rfl
  | counted _ hstep hbegins ih => rw [hstep.misses_of_begins hbegins, ih, Nat.add_assoc]
  | other _ hstep hbegins ih => rw [hstep.misses_of_not_begins hbegins, ih]

theorem CountedSteps.entries (h : lib.CountedSteps Moment.Completes first n m) (hpending : first.Pending above)
    (hrecorded : first.Recorded lib) :
    m.cache.entries.length = first.cache.entries.length + n := by
  induction h with
  | refl => rfl
  | counted hcounted hstep hcompletes ih =>
    obtain ⟨_, _, key, output, -, -, hnone, hcache⟩ :=
      hstep.stores (Moment.pending_of_steps hpending hrecorded hcounted.steps)
        (Moment.recorded_of_steps hrecorded hcounted.steps) hcompletes
    rw [hcache, Cache.store_of_none hnone, List.length_cons, ih, Nat.add_assoc]
  | other _ hstep hcompletes ih => rw [hstep.entries_of_not_completes hcompletes, ih]

end Library

/-! ## The balance -/

/-- since a render began below `above` on `cache`, the misses have grown by what the entries have and the bodies that
are on the stack, and by those that have been given up; a cycle gives up all that are on the chain below `above` -/
structure Moment.Balanced (above : List String) (cache : Cache) (m : Moment) : Prop where
  le : cache.misses + m.cache.entries.length + m.frames.length ≤ m.cache.misses + cache.entries.length
  going : (∀ name slots e, m.control ≠ .back name slots (.error e)) →
    m.cache.misses + cache.entries.length = cache.misses + m.cache.entries.length + m.frames.length
  cycle : ∀ n s name chain, m.control = .back n s (.error (.renderCycle name chain)) →
    m.cache.misses + cache.entries.length + (above.length + 1) =
      cache.misses + m.cache.entries.length + chain.length

namespace Moment

variable {lib : Library} {above : List String} {cache : Cache} {m m' : Moment}

theorem balanced_start (chain : List String) (name : String) (slots : Slots) (cache : Cache) :
    (start chain name slots cache).Balanced chain cache :=
  ⟨le_rfl, fun _ => rfl, nofun⟩

theorem Balanced.step (h : m.Balanced above cache) (hpending : m.Pending above) (hstep : lib.Step m m') :
    m'.Balanced above cache := by
  obtain ⟨hle, hgoing, hcycle⟩ := h
  -- once a render has failed, there is only the inequality, but for cycles
  have hfails : ∀ {P : Prop} {name slots e},
      (∀ n s e', Control.back name slots (.error e) ≠ .back n s (.error e')) → P :=
    fun h => absurd rfl (h _ _ _)
  cases hstep with
  | missing => exact ⟨hle, hfails, nofun⟩
  | @active frames chain now name slots =>
    refine ⟨hle, hfails, fun n s name' chain' he => ?_⟩
    cases he
    have hbalance : now.misses + cache.entries.length = cache.misses + now.entries.length + frames.length :=
      hgoing nofun
    have hlength : chain.length = above.length + frames.length := by
      rw [show chain = _ from hpending.chain_eq, List.length_append, List.length_reverse, List.length_map]
    show now.misses + cache.entries.length + (above.length + 1) = cache.misses + now.entries.length + _
    rw [List.length_append, List.length_singleton, hlength]
    omega
  | invalid hfind hmem hkey =>
    obtain ⟨slot, rfl⟩ := Fingerprint.exists_slot_of_error hkey
    exact ⟨hle, hfails, nofun⟩
  | @miss frames chain now =>
    have hbalance : now.misses + cache.entries.length = cache.misses + now.entries.length + frames.length :=
      hgoing nofun
    have hnew : now.misses + 1 + cache.entries.length = cache.misses + now.entries.length + (frames.length + 1) := by
      omega
    exact ⟨hnew.ge, fun _ => hnew, nofun⟩
  | fail =>
    refine ⟨(Nat.le_succ _).trans hle, hfails, fun n s name' chain' he => ?_⟩
    cases he
    exact hcycle _ _ _ _ rfl
  | @finish frames chain now name slots key output =>
    have hnone : now.find? key = none := hpending.absent _ List.mem_cons_self
    have hbalance : now.misses + cache.entries.length = cache.misses + now.entries.length + (frames.length + 1) :=
      hgoing nofun
    have hnew : now.misses + cache.entries.length = cache.misses + (now.entries.length + 1) + frames.length := by
      omega
    rw [Cache.store_of_none hnone]
    exact ⟨hnew.ge, fun _ => hnew, nofun⟩
  | _ => exact ⟨hle, fun _ => hgoing nofun, nofun⟩

theorem balanced_of_steps (h : m.Balanced above cache) (hpending : m.Pending above) (hrecorded : m.Recorded lib)
    (hsteps : lib.Steps m m') : m'.Balanced above cache := by
  induction hsteps with
  | refl => exact h
  | tail hsteps hstep ih => exact ih.step (pending_of_steps hpending hrecorded hsteps) hstep

end Moment

/-! ## Calls and runs -/

namespace Cache

/-- there are at least as many new misses as there are new entries -/
def Covers (cache later : Cache) : Prop :=
  cache.misses + later.entries.length ≤ later.misses + cache.entries.length

theorem counting_covers : Counting Covers where
  refl _ := le_rfl
  trans hab hbc := by
    unfold Covers at *
    omega
  hit _ := le_rfl
  miss cache := Nat.add_le_add_right (Nat.le_succ cache.misses) _

end Cache

namespace Library

variable (lib : Library) (chain : List String) (name : String) (slots : Slots) (cache : Cache)

theorem balanced_ended : (Moment.ended lib chain name slots cache).Balanced chain cache :=
  Moment.balanced_of_steps (Moment.balanced_start chain name slots cache) (Moment.pending_start chain name slots cache)
    (Moment.recorded_start lib chain name slots cache) (Moment.steps_ended lib chain name slots cache)

theorem covers_renderWithin : (lib.renderWithin chain name slots).Follows Cache.Covers :=
  fun cache => (lib.balanced_ended chain name slots cache).le

end Library

/-- there are never more entries than misses -/
theorem Engine.entries_le_misses (lib : Library) (ops : List Operation) :
    ((ofLibrary lib).run ops).cache.entries.length ≤ ((ofLibrary lib).run ops).cache.misses := by
  have hrun : ∀ (engine : Engine), engine.cache.entries.length ≤ engine.cache.misses →
      (engine.run ops).cache.entries.length ≤ (engine.run ops).cache.misses := by
    induction ops with
    | nil => exact fun _ h => h
    | cons op ops ih =>
      refine fun engine h => ih (op.apply engine) ?_
      by_cases hop : op = .clearCache
      · subst hop
        exact Nat.zero_le _
      · have hcovers := Operation.follows_apply Cache.counting_covers Library.covers_renderWithin hop engine
        unfold Cache.Covers at hcovers
        omega
  exact hrun (ofLibrary lib) le_rfl

namespace Renderer

/-- what a call of a renderer begins and completes, and what it does to the cache -/
structure Accounts (r : Renderer) (name : String) (slots : Slots) (begun completed : Nat) : Prop where
  /-- on the way to its end the call begins `begun` bodies, its own among them -/
  begun_iff : ∀ n, r.engine.library.CountedSteps Moment.Begins (.start r.chain name slots r.engine.cache) n
    ⟨[], r.chain, (r.render name slots).1.engine.cache, .back name slots (r.render name slots).2⟩ ↔ n = begun
  completed_iff : ∀ n, r.engine.library.CountedSteps Moment.Completes (.start r.chain name slots r.engine.cache) n
    ⟨[], r.chain, (r.render name slots).1.engine.cache, .back name slots (r.render name slots).2⟩ ↔ n = completed
  misses : (r.render name slots).1.engine.cache.misses = r.engine.cache.misses + begun
  entries : (r.render name slots).1.engine.cache.entries.length = r.engine.cache.entries.length + completed
  le : completed ≤ begun
  ok : ∀ output, (r.render name slots).2 = .ok output → begun = completed
  /-- a cycle gives up the bodies that are on the reported chain, below that of the renderer -/
  cycle : ∀ n chain, (r.render name slots).2 = .error (.renderCycle n chain) →
    begun + (r.chain.length + 1) = completed + chain.length

theorem exists_accounts (r : Renderer) (name : String) (slots : Slots) :
    ∃ begun completed, r.Accounts name slots begun completed := by
  have hsteps := Moment.steps_ended r.engine.library r.chain name slots r.engine.cache
  have hpending := Moment.pending_start r.chain name slots r.engine.cache
  have hrecorded := Moment.recorded_start r.engine.library r.chain name slots r.engine.cache
  have hbalanced := r.engine.library.balanced_ended r.chain name slots r.engine.cache
  obtain ⟨begun, hbegun⟩ := hsteps.exists_counted Moment.Begins
  obtain ⟨completed, hcompleted⟩ := hsteps.exists_counted Moment.Completes
  have hmisses : (r.render name slots).1.engine.cache.misses = r.engine.cache.misses + begun := hbegun.misses
  have hentries : (r.render name slots).1.engine.cache.entries.length = r.engine.cache.entries.length + completed :=
    hcompleted.entries hpending hrecorded
  refine ⟨begun, completed, fun n => ⟨fun h => ?_, ?_⟩, fun n => ⟨fun h => ?_, ?_⟩, hmisses, hentries, ?_, ?_, ?_⟩
  · exact Nat.add_left_cancel (h.misses.symm.trans hmisses)
  · rintro rfl
    exact hbegun
  · exact Nat.add_left_cancel ((h.entries hpending hrecorded).symm.trans hentries)
  · rintro rfl
    exact hcompleted
  · have hle : r.engine.cache.misses + (r.render name slots).1.engine.cache.entries.length ≤
        (r.render name slots).1.engine.cache.misses + r.engine.cache.entries.length := hbalanced.le
    omega
  · intro output hok
    have hgoing : (r.render name slots).1.engine.cache.misses + r.engine.cache.entries.length =
        r.engine.cache.misses + (r.render name slots).1.engine.cache.entries.length := by
      refine hbalanced.going fun n s e he => ?_
      have herror : (r.render name slots).2 = .error e := (Control.back.inj he).2.2
      rw [hok] at herror
      cases herror
    omega
  · intro n cycle hcycle
    have hbalance : (r.render name slots).1.engine.cache.misses + r.engine.cache.entries.length + (r.chain.length + 1) =
        r.engine.cache.misses + (r.render name slots).1.engine.cache.entries.length + cycle.length :=
      hbalanced.cycle name slots n cycle (congrArg (Control.back name slots) hcycle)
    omega

/-- **The accounts of the cache are exact.** Whatever is being rendered above it, a call counts a miss for every body
that it begins and makes an entry for every body that it completes, so misses and entries grow by the same if it gives
an output, and otherwise the misses by as much more as bodies have been given up; of a cycle, those on the reported
chain below that of the renderer, but for the name at its end. An output is only ever stored where none is, and at no
time are there more entries than misses, however often the cache is cleared. -/
theorem render_accounts (r : Renderer) (name : String) (slots : Slots) :
    (∃ begun completed, r.Accounts name slots begun completed) ∧
    (∀ m m', r.engine.library.Steps (.start r.chain name slots r.engine.cache) m → r.engine.library.Step m m' →
      m.Completes m' → ∃ n s key output, m'.control = .back n s (.ok output) ∧ Fingerprint.of n s = .ok key ∧
        m.cache.find? key = none ∧ m'.cache = (m.cache.store key output).2) ∧
    ∀ lib ops,
      ((Engine.ofLibrary lib).run ops).cache.entries.length ≤ ((Engine.ofLibrary lib).run ops).cache.misses := by
  refine ⟨r.exists_accounts name slots, fun m m' hsteps hstep hcompletes => ?_, Engine.entries_le_misses⟩
  have hpending := Moment.pending_start r.chain name slots r.engine.cache
  have hrecorded := Moment.recorded_start r.engine.library r.chain name slots r.engine.cache
  exact hstep.stores (Moment.pending_of_steps hpending hrecorded hsteps)
    (Moment.recorded_of_steps hrecorded hsteps) hcompletes

end Renderer

end BlockTemplates
