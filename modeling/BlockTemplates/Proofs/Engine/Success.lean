/-
When a render succeeds.

Whether a render succeeds is a matter of the graph of invocations below its name, not of the slots or the cache:
- `renderPlain_error_cases`: a render of finite slots fails only with a name that is reached and missing, or with one
  that is reached and is on the chain or reaches itself.
- `renderPlain_ok_of_reaches`: a render that succeeds has rendered every name that is reached.
- `render_ok_iff`: on an empty cache a render succeeds exactly if every name that is reached is in the library and none
  of them reaches itself.
-/
import BlockTemplates.Proofs.Engine.Transparency

namespace BlockTemplates

namespace Library

variable {lib : Library} {chain : List String} {name : String} {slots : Slots}

/-! ## The graph of a library -/

/-- the invocations of a library are those of its templates -/
theorem forall_invokes_iff {P : String → String → Prop} :
    (∀ x y, lib.Invokes x y → P x y) ↔ ∀ t ∈ lib.templates, ∀ y ∈ t.dependencies, P t.name y := by
  constructor
  · exact fun h t ht y hy => h t.name y ⟨t, find?_eq_some_iff.2 ⟨ht, rfl⟩, hy⟩
  · rintro h x y ⟨t, hfind, hy⟩
    obtain ⟨ht, rfl⟩ := find?_eq_some_iff.1 hfind
    exact h t ht y hy

/-- what holds of a name and is passed on by invocations holds of every name that is reached -/
theorem Reaches.closed {P : String → Prop} {x y : String} (h : lib.Reaches x y)
    (hstep : ∀ x y, lib.Invokes x y → P x → P y) (hx : P x) : P y := by
  induction h with
  | refl => exact hx
  | tail _ hinvokes ih => exact hstep _ _ hinvokes ih

/-- a name that only reaches names from which a rank descends does not reach itself -/
theorem not_reachesBelow_of_rank {P : String → Prop} {rank : String → Nat}
    (hstep : ∀ x y, lib.Invokes x y → P x → P y ∧ rank y < rank x) {x : String} (hx : P x) :
    ¬ lib.ReachesBelow x x := by
  intro hself
  have hdescent : ∀ y, lib.ReachesBelow x y → P y ∧ rank y < rank x := by
    intro y h
    induction h with
    | single hinvokes => exact hstep _ _ hinvokes hx
    | tail _ hinvokes ih =>
      obtain ⟨hP, hlt⟩ := hstep _ _ hinvokes ih.1
      exact ⟨hP, hlt.trans ih.2⟩
  exact (hdescent x hself).2.false

/-! ## Renders that fail -/

/-- a render of finite slots fails only because a name is missing, or is met again -/
theorem renderPlain_error_cases {e : Error} (hslots : slots.Finite)
    (h : lib.renderPlain chain name slots = .error e) :
    (∃ n, e = .missingTemplate n ∧ lib.Reaches name n ∧ n ∉ lib.names) ∨
      ∃ n above, e = .renderCycle n above ∧ lib.Reaches name n ∧ (n ∈ chain ∨ lib.ReachesBelow n n) := by
  induction chain, name, slots using renderPlain.induct lib with
  | case1 chain name slots hfind =>
    rw [renderPlain_missing hfind] at h
    cases h
    exact .inl ⟨name, rfl, .refl, find?_eq_none_iff.1 hfind⟩
  | case2 chain name slots t hfind hmem =>
    rw [renderPlain_active hfind hmem] at h
    cases h
    exact .inr ⟨name, _, rfl, .refl, .inl hmem⟩
  | case3 chain name slots t hfind hmem e' hinvalid =>
    rw [Slots.checkFinite_eq_ok_iff.2 hslots] at hinvalid
    cases hinvalid
  | case4 chain name slots t hfind hmem hvalid ih =>
    rw [renderPlain_valid hfind hmem hvalid] at h
    obtain ⟨nested, hnested, scope, herror⟩ := Template.nested_error_of_render_error h
    have hinvokes : lib.Invokes name nested := ⟨t, hfind, hnested⟩
    rcases ih nested _ (hslots.within scope) herror with ⟨n, he, hn, hmissing⟩ | ⟨n, above, he, hn, hcycle⟩
    · exact .inl ⟨n, he, .head hinvokes hn, hmissing⟩
    · refine .inr ⟨n, above, he, .head hinvokes hn, ?_⟩
      rcases hcycle with hchain | hself
      · rcases List.mem_append.1 hchain with hchain | hname
        · exact .inl hchain
        · -- the name that is met again is the one that has been put on the chain
          rw [List.mem_singleton.1 hname] at hn ⊢
          exact .inr (.head' hinvokes hn)
      · exact .inr hself

/-! ## Renders that succeed -/

/-- a render that succeeds has rendered every name that is reached -/
theorem renderPlain_ok_of_reaches {output y : String} (h : lib.renderPlain chain name slots = .ok output)
    (hy : lib.Reaches name y) : ∃ above s o, lib.renderPlain above y s = .ok o := by
  induction hy with
  | refl => exact ⟨chain, slots, output, h⟩
  | tail _ hinvokes ih =>
    obtain ⟨above, s, o, ho⟩ := ih
    obtain ⟨t, hfind, -, -, hrender⟩ := renderPlain_ok_cases ho
    obtain ⟨t', hfind', hdependency⟩ := hinvokes
    obtain rfl : t = t' := Option.some.inj (hfind.symm.trans hfind')
    obtain ⟨s', o', ho'⟩ := Template.nested_ok_of_render_ok hrender _ hdependency
    exact ⟨_, s', o', ho'⟩

/-- finite slots are rendered exactly if no name that is reached is missing or reaches itself -/
theorem renderPlain_ok_iff (hslots : slots.Finite) :
    (∃ output, lib.renderPlain [] name slots = .ok output) ↔
      ∀ y, lib.Reaches name y → y ∈ lib.names ∧ ¬ lib.ReachesBelow y y := by
  constructor
  · rintro ⟨output, h⟩ y hy
    obtain ⟨above, s, o, ho⟩ := renderPlain_ok_of_reaches h hy
    obtain ⟨t, hfind, -⟩ := renderPlain_ok_cases ho
    exact ⟨mem_names_of_find? hfind, not_reachesBelow_of_renderPlain_ok ho⟩
  · intro h
    rcases hrender : lib.renderPlain [] name slots with e | output
    · rcases renderPlain_error_cases hslots hrender with ⟨n, -, hn, hmissing⟩ | ⟨n, -, -, hn, hcycle⟩
      · exact absurd (h n hn).1 hmissing
      · exact absurd (hcycle.resolve_left List.not_mem_nil) (h n hn).2
    · exact ⟨output, rfl⟩

end Library

/-! ## Engines with an empty cache -/

theorem Cache.Sound.of_entries_nil {cache : Cache} (h : cache.entries = []) (lib : Library) : cache.Sound lib := by
  intro name slots key output _ hfind
  rw [find?, h] at hfind
  cases hfind

namespace Engine

/-- **When a render succeeds.** On an empty cache, a render of finite slots succeeds exactly if every name that is
reached by invocations is in the library and none of them reaches itself. If it fails, then because a name that is
reached is missing, or because one that is reached reaches itself; so a template that is reached twice on different ways
is no cycle. Other finite slots do not change whether the render succeeds. -/
theorem render_ok_iff {engine : Engine} (hcache : engine.cache.entries = []) (name : String) {slots : Slots}
    (hslots : slots.Finite) :
    ((∃ output, (engine.render name slots).2 = .ok output) ↔
      ∀ y, engine.library.Reaches name y → y ∈ engine.library.names ∧ ¬ engine.library.ReachesBelow y y) ∧
    (∀ e, (engine.render name slots).2 = .error e →
      (∃ n, e = .missingTemplate n ∧ engine.library.Reaches name n ∧ n ∉ engine.library.names) ∨
        ∃ n chain, e = .renderCycle n chain ∧ engine.library.Reaches name n ∧ engine.library.ReachesBelow n n) ∧
    ∀ other : Slots, other.Finite →
      ((∃ output, (engine.render name slots).2 = .ok output) ↔
        ∃ output, (engine.render name other).2 = .ok output) := by
  have hsound : engine.Sound := Cache.Sound.of_entries_nil hcache engine.library
  have hplain : ∀ s, (engine.render name s).2 = engine.library.renderPlain [] name s :=
    fun s => (sound_render hsound name s).1
  simp only [hplain]
  refine ⟨Library.renderPlain_ok_iff hslots, ?_, ?_⟩
  · intro e he
    rcases Library.renderPlain_error_cases hslots he with hmissing | ⟨n, chain, rfl, hn, hcycle⟩
    · exact .inl hmissing
    · exact .inr ⟨n, chain, rfl, hn, hcycle.resolve_left List.not_mem_nil⟩
  · intro other hother
    rw [Library.renderPlain_ok_iff hslots, Library.renderPlain_ok_iff hother]

/-- a page of which two parts invoke the same template, one that invokes itself, and one that invokes a missing name -/
def diamondLibrary : Library :=
  ⟨[⟨"page", "\x7b\x7b> head \x7d\x7d\x7b\x7b> foot site \x7d\x7d", by decide⟩,
    ⟨"head", "\x7b\x7b> logo \x7d\x7d", by decide⟩,
    ⟨"foot", "\x7b\x7b> logo \x7d\x7d", by decide⟩,
    ⟨"logo", "\x7b\x7b name \x7d\x7d", by decide⟩,
    ⟨"loop", "\x7b\x7b> page \x7d\x7d\x7b\x7b> loop \x7d\x7d", by decide⟩,
    ⟨"gap", "\x7b\x7b> page \x7d\x7d\x7b\x7b> gone \x7d\x7d", by decide⟩], by decide⟩

def siteSlots : Slots :=
  ⟨[("site", .map [("name", .string "x")])], by decide⟩

/-- how far a template of the page is from the bottom -/
def pageRank (name : String) : Nat :=
  ["logo", "foot", "head", "page"].idxOf name

theorem render_ok_iff_diamond :
    siteSlots.Finite ∧ (∃ output, ((ofLibrary diamondLibrary).render "page" siteSlots).2 = .ok output) ∧
      (¬ ∃ output, ((ofLibrary diamondLibrary).render "loop" siteSlots).2 = .ok output) ∧
      ¬ ∃ output, ((ofLibrary diamondLibrary).render "gap" siteSlots).2 = .ok output := by
  have hfinite : siteSlots.Finite := by decide
  have hloop : diamondLibrary.Invokes "loop" "loop" := ⟨_, rfl, by decide +kernel⟩
  have hgap : diamondLibrary.Invokes "gap" "gone" := ⟨_, rfl, by decide +kernel⟩
  have hpage : ∀ x y, diamondLibrary.Invokes x y → pageRank x < 4 → pageRank y < 4 ∧ pageRank y < pageRank x :=
    Library.forall_invokes_iff.2 (by decide +kernel)
  refine ⟨hfinite, ?_, ?_, ?_⟩
  · refine (render_ok_iff rfl "page" hfinite).1.2 fun y hy => ?_
    have hy' : pageRank y < 4 := hy.closed (fun x z hinvokes hx => (hpage x z hinvokes hx).1) (by decide)
    refine ⟨?_, Library.not_reachesBelow_of_rank hpage hy'⟩
    have hparts : y ∈ ["logo", "foot", "head", "page"] := List.idxOf_lt_length_iff.1 hy'
    exact (by decide : ∀ x ∈ ["logo", "foot", "head", "page"], x ∈ diamondLibrary.names) y hparts
  · intro hok
    exact ((render_ok_iff rfl "loop" hfinite).1.1 hok "loop" .refl).2 (.single hloop)
  · intro hok
    exact absurd ((render_ok_iff rfl "gap" hfinite).1.1 hok "gone" (.single hgap)).1 (by decide)

end Engine

end BlockTemplates
