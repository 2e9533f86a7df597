/-
The slots a render reads.

`Library.Mentions` says which slots a template mentions: the first parts of the paths in it, those of its scopes
included, and what is mentioned by the templates it passes all its slots to. A template that is invoked with a scope
gets nothing else, so what that one mentions is not mentioned here. The relation is the least one with these rules, also
where templates invoke each other in a circle.

Slots that agree on what a template mentions look the same to it and to everything below it
(`renderPlain_of_mentions`), although their fingerprints differ: `render_of_mentions`.
-/
import BlockTemplates.Proofs.Engine.Transparency

namespace BlockTemplates

/-! ## Slots that agree -/

namespace Slots

/-- two collections of slots have the same value, or none, for each of the names; the two zeros are not the same -/
def Agree (names : String → Prop) (a b : Slots) : Prop :=
  ∀ name, names name → a.get? name = b.get? name

variable {a b : Slots} {path : SlotPath}

/-- what a path leads to depends on the slot it begins with -/
theorem resolve_congr (h : a.get? path.root = b.get? path.root) : a.resolve path = b.resolve path := by
  have hroot : ∀ s : Slots, s.resolve path = (s.get? path.root).bind (Value.lookup path.keys) := fun _ => rfl
  rw [hroot, hroot, h]

theorem entries_within (slots : Slots) (path : SlotPath) :
    (slots.within (some path)).entries = ((slots.resolve path).bind Value.entries?).getD [] := by
  rw [within]
  split
  · next hfound => simp [hfound, Value.entries?]
  · next hfound =>
    rcases hresolve : slots.resolve path with _ | v
    · rfl
    · cases v with
      | map entries => exact absurd hresolve (hfound entries)
      | _ => rfl

/-- a template that is invoked with a scope gets the same slots if the scope leads to the same value -/
theorem within_congr (h : a.resolve path = b.resolve path) : a.within (some path) = b.within (some path) := by
  apply ext_toValue
  rw [toValue, toValue, entries_within, entries_within, h]

end Slots

/-! ## What templates mention -/

namespace Library

/-- the slots that the template of a name mentions, or a template that it passes all its slots to -/
inductive Mentions (lib : Library) : String → String → Prop where
  | slot {name : String} {t : Template} {path : SlotPath} (hfind : lib.find? name = some t)
    (hmem : .slot path ∈ t.segments) : Mentions lib name path.root
  | scope {name n : String} {t : Template} {path : SlotPath} (hfind : lib.find? name = some t)
    (hmem : .invoke n (some path) ∈ t.segments) : Mentions lib name path.root
  | passed {name n key : String} {t : Template} (hfind : lib.find? name = some t)
    (hmem : .invoke n none ∈ t.segments) (h : Mentions lib n key) : Mentions lib name key

/-- what a segment mentions is in a table, given what the table says of other templates -/
def listed (table : String → List String) (name : String) : Segment → Prop
  | .text _ => True
  | .slot path => path.root ∈ table name
  | .invoke _ (some path) => path.root ∈ table name
  | .invoke n none => ∀ key ∈ table n, key ∈ table name

instance (table : String → List String) (name : String) (segment : Segment) :
    Decidable (listed table name segment) := by
  unfold listed
  split <;> infer_instance

variable {lib : Library}

/-- a table that obeys the rules has everything that is mentioned -/
theorem Mentions.mem_table {table : String → List String}
    (htable : ∀ t ∈ lib.templates, ∀ segment ∈ t.segments, listed table t.name segment) {name key : String}
    (h : lib.Mentions name key) : key ∈ table name := by
  have hlisted : ∀ {name t segment}, lib.find? name = some t → segment ∈ t.segments → listed table name segment := by
    intro name t segment hfind hmem
    obtain ⟨ht, rfl⟩ := find?_eq_some_iff.1 hfind
    exact htable t ht segment hmem
  induction h with
  | slot hfind hmem => exact hlisted hfind hmem
  | scope hfind hmem => exact hlisted hfind hmem
  | passed hfind hmem _ ih => exact hlisted hfind hmem _ ih

/-! ## Renders -/

/-- below every chain, a render does not tell finite slots apart that agree on what its template mentions -/
theorem renderPlain_of_mentions {chain : List String} {name : String} {a b : Slots} (ha : a.Finite) (hb : b.Finite)
    (h : a.Agree (lib.Mentions name) b) : lib.renderPlain chain name a = lib.renderPlain chain name b := by
  induction chain, name, a using renderPlain.induct lib generalizing b with
  | case1 chain name a hfind => rw [renderPlain_missing hfind, renderPlain_missing hfind]
  | case2 chain name a t hfind hmem => rw [renderPlain_active hfind hmem, renderPlain_active hfind hmem]
  | case3 chain name a t hfind hmem e hinvalid =>
    rw [Slots.checkFinite_eq_ok_iff.2 ha] at hinvalid
    cases hinvalid
  | case4 chain name a t hfind hmem hvalid ih =>
    rw [renderPlain_valid hfind hmem hvalid, renderPlain_valid hfind hmem (Slots.checkFinite_eq_ok_iff.2 hb)]
    refine renderSegments_congr sequential_eq t.segments ?_ ?_
    · intro path hslot
      exact Slots.resolve_congr (h path.root (.slot hfind hslot))
    · intro n scope hinvoke
      cases scope with
      | none => exact ih n a ha hb fun key hkey => h key (.passed hfind hinvoke hkey)
      | some path =>
        -- the invoked template gets the same slots, so nothing is asked of what it mentions
        rw [Slots.within_congr (Slots.resolve_congr (h path.root (.scope hfind hinvoke)))]

end Library

namespace Engine

/-- **A render reads only the slots that are mentioned.** With finite slots that agree on what the template of `name`
mentions, fresh engines on a library render it to the same text, or fail with the same error. -/
theorem render_of_mentions (lib : Library) (name : String) {a b : Slots} (ha : a.Finite) (hb : b.Finite)
    (h : a.Agree (lib.Mentions name) b) :
    ((ofLibrary lib).render name a).2 = ((ofLibrary lib).render name b).2 := by
  rw [(sound_render (sound_ofLibrary lib) name a).1, (sound_render (sound_ofLibrary lib) name b).1]
  exact Library.renderPlain_of_mentions ha hb h

/-- a letter that passes a part of its slots on to the greeting, and all of them to the closing -/
def letterLibrary : Library :=
  ⟨[⟨"letter", "\x7b\x7b title \x7d\x7d\x7b\x7b> greeting user \x7d\x7d\x7b\x7b> closing \x7d\x7d", by decide⟩,
    ⟨"greeting", "\x7b\x7b name.first \x7d\x7d", by decide⟩,
    ⟨"closing", "\x7b\x7b year \x7d\x7d", by decide⟩], by decide⟩

/-- what the templates of the letter mention; the name in the greeting is looked up in the user -/
def letterMentions (name : String) : List String :=
  if name = "letter" then ["title", "user", "year"] else if name = "greeting" then ["name"] else ["year"]

/-- slots of the letter, with a name that is not the user's -/
def letterSlots (name : String) : Slots :=
  Slots.ofPairs [("title", .string "a"), ("user", .map [("name", .map [("first", .string "x")])]),
    ("name", .map [("first", .string name)])]

/-- the name that is not the user's is not read -/
theorem render_of_mentions_letter :
    (letterSlots "y").Finite ∧ (letterSlots "z").Finite ∧
      (letterSlots "y").Agree (letterLibrary.Mentions "letter") (letterSlots "z") ∧
      ((ofLibrary letterLibrary).render "letter" (letterSlots "y")).2 =
        ((ofLibrary letterLibrary).render "letter" (letterSlots "z")).2 := by
  have hy : (letterSlots "y").Finite := by decide
  have hz : (letterSlots "z").Finite := by decide
  have htable : ∀ t ∈ letterLibrary.templates, ∀ segment ∈ t.segments,
      Library.listed letterMentions t.name segment := by decide +kernel
  have hsame : ∀ key ∈ letterMentions "letter", (letterSlots "y").get? key = (letterSlots "z").get? key := by
    simp [letterMentions, letterSlots, Slots.ofPairs]
  have hagree : (letterSlots "y").Agree (letterLibrary.Mentions "letter") (letterSlots "z") :=
    fun key hkey => hsame key (hkey.mem_table htable)
  exact ⟨hy, hz, hagree, render_of_mentions letterLibrary "letter" hy hz hagree⟩

end Engine

end BlockTemplates
