/-
Scopes as paths in front.

A template that is invoked with a scope gets the map at the scope, or no slots. What it finds there at a path, the
joined path finds in all slots (`Slots.resolve_within`): where nothing or a scalar is at the scope, neither finds
anything. Only where a list is at the scope, the joined path may go on by an index. A scope within a scope is the
joined path as well (`Slots.within_within`). So the segments of a template can be rewritten one by one
(`Segment.below`): with all slots they are rendered as the others are with the scope (`rendering_below`).
-/
import BlockTemplates.Proofs.Engine.Mentions
import BlockTemplates.Proofs.Template.Replaced

namespace BlockTemplates

/-! ## Joined paths -/

namespace SlotPath

variable {p q : SlotPath}

theorem parts_append (p q : SlotPath) : (p.append q).parts = p.parts ++ q.parts := rfl

theorem isValid_append (hp : p.IsValid) (hq : q.IsValid) : (p.append q).IsValid :=
  List.forall_mem_append.2 ⟨hp, hq⟩

/-- a joined path is written with a point between -/
theorem chars_append (p q : SlotPath) : (p.append q).chars = p.chars ++ '.' :: q.chars := by
  have key : ∀ (first : List Char) (rest : List (List Char)),
      ['.'].intercalate (first :: rest ++ q.parts.map String.toList) =
        ['.'].intercalate (first :: rest) ++ '.' :: q.chars := by
    intro first rest
    induction rest generalizing first with
    | nil => simp [chars, parts, List.intercalate_cons_cons]
    | cons second rest ih =>
      have hrest := ih second
      simp only [List.cons_append] at hrest ⊢
      rw [List.intercalate_cons_cons, hrest, List.intercalate_cons_cons]
      simp only [List.append_assoc]
  rw [chars, parts_append, List.map_append]
  exact key p.root.toList (p.keys.map String.toList)

/-- two paths with a point between are read as the joined path -/
theorem ofChars?_append (hp : p.IsValid) (hq : q.IsValid) : ofChars? (p.chars ++ '.' :: q.chars) = some (p.append q) :=
  ofChars?_eq_some_iff.2 ⟨isValid_append hp hq, chars_append p q⟩

end SlotPath

/-! ## Look-ups by joined paths -/

theorem Value.lookup_append (keys more : List String) (v : Value) :
    v.lookup (keys ++ more) = (v.lookup keys).bind (lookup more) := by
  induction keys generalizing v with
  | nil => rfl
  | cons key keys ih =>
    rw [List.cons_append, lookup, lookup]
    rcases v.child? key with _ | child
    · rfl
    · exact ih child

namespace Slots

variable {slots : Slots} {p : SlotPath}

theorem resolve_append (slots : Slots) (p q : SlotPath) :
    slots.resolve (p.append q) = (slots.resolve p).bind (Value.lookup q.parts) :=
  Value.lookup_append p.parts q.parts slots.toValue

/-- the slots that are passed with a scope hold what is found at the paths that begin with it -/
theorem resolve_within (hlist : ∀ items, slots.resolve p ≠ some (.list items)) (q : SlotPath) :
    (slots.within (some p)).resolve q = slots.resolve (p.append q) := by
  rw [resolve_append, resolve, toValue, entries_within]
  rcases hfound : slots.resolve p with _ | v
  · rfl
  · cases v with
    | map entries => rfl
    | list items => exact absurd hfound (hlist items)
    | bool | number | string => rfl

/-- a scope within a scope is the joined path -/
theorem within_within (hlist : ∀ items, slots.resolve p ≠ some (.list items)) (q : SlotPath) :
    (slots.within (some p)).within (some q) = slots.within (some (p.append q)) := by
  apply ext_toValue
  rw [toValue, toValue, entries_within, entries_within slots, resolve_within hlist]

end Slots

/-! ## Segments with a path in front -/

namespace Segment

/-- the segment that reads below `p` what the given one reads in all slots -/
def below (p : SlotPath) : Segment → Segment
  | text cs => text cs
  | slot q => slot (p.append q)
  | invoke name none => invoke name (some p)
  | invoke name (some q) => invoke name (some (p.append q))

variable {m : Type → Type} [Monad m] {slots : Slots} {p : SlotPath}

theorem render_below (nested : String → Slots → m String)
    (hlist : ∀ items, slots.resolve p ≠ some (.list items)) (segment : Segment) :
    (segment.below p).render nested slots = segment.render nested (slots.within (some p)) := by
  cases segment with
  | text cs => rfl
  | slot q => rw [below, render, render, Slots.resolve_within hlist]
  | invoke name scope =>
    cases scope with
    | none => rfl
    | some q => rw [below, render, render, Slots.within_within hlist]

end Segment

theorem renderSegments_below {m : Type → Type} [Monad m] {slots : Slots} {p : SlotPath}
    (nested : String → Slots → m String) (hlist : ∀ items, slots.resolve p ≠ some (.list items))
    (segments : List Segment) :
    renderSegments nested slots (segments.map (Segment.below p)) =
      renderSegments nested (slots.within (some p)) segments := by
  induction segments with
  | nil => rfl
  | cons segment rest ih => rw [List.map_cons, renderSegments, renderSegments, Segment.render_below nested hlist, ih]

/-! ## Templates with a path in front -/

theorem Segment.keepsBrackets_below {p : SlotPath} (hp : p.IsValid) : KeepsBrackets (below p) where
  text cs := rfl
  isTag segment := by
    rcases segment with _ | _ | ⟨name, _ | scope⟩ <;> rfl
  tag := by
    intro token inner segment htag
    rw [tag?_eq_some_iff]
    cases tag?_eq_some_iff.1 htag with
    | slot hpath => exact inside_slot (SlotPath.isValid_append hp hpath)
    | invoke hname => exact inside_invoke ⟨hname, by simpa using hp⟩
    | invokeIn hname hpath => exact inside_invoke ⟨hname, by simpa using SlotPath.isValid_append hp hpath⟩

namespace Template

/-- the template that reads below `p` what `t` reads in all slots -/
def below (p : SlotPath) (t : Template) : Template :=
  ⟨t.name, shown (t.segments.map (Segment.below p)), t.validName⟩

theorem segments_below {p : SlotPath} (hp : p.IsValid) (t : Template) :
    (t.below p).segments = t.segments.map (Segment.below p) :=
  tokenize_shown_map (Segment.keepsBrackets_below hp) t.body

/-- **A scope is a path in front.** Let a valid path lead to no list. On every engine and below every chain, a template
is rendered with the slots that an invocation with this scope passes as its segments are with all slots and the path in
front: to the same text or error, and with the same cache afterwards. A path with another in front is what is read where
the two are written with a point between, and the segments are those of a template: the one that shows them. -/
theorem rendering_below {p : SlotPath} {slots : Slots} (hp : p.IsValid)
    (hlist : ∀ items, slots.resolve p ≠ some (.list items)) :
    (∀ q, q.IsValid → SlotPath.ofChars? (p.chars ++ '.' :: q.chars) = some (p.append q)) ∧
    ∀ t : Template, (t.below p).segments = t.segments.map (Segment.below p) ∧
      ∀ (engine : Engine) (chain : List String),
        engine.rendering (t.render (engine.library.renderWithin chain) (slots.within (some p))) =
          engine.rendering
            (renderSegments (engine.library.renderWithin chain) slots (t.segments.map (Segment.below p))) := by
  refine ⟨fun q hq => SlotPath.ofChars?_append hp hq, fun t => ⟨segments_below hp t, fun engine chain => ?_⟩⟩
  rw [renderSegments_below _ hlist, render]

/-- a card that reads a list below its slots, and invokes a line with all of them and with two scopes -/
def card : Template :=
  ⟨"card", "\x7b\x7b name.first \x7d\x7d, \x7b\x7b tags.1 \x7d\x7d\x7b\x7b> line \x7d\x7d" ++
    "\x7b\x7b> line home \x7d\x7d\x7b\x7b> line tags \x7d\x7d", by decide⟩

def lineEngine : Engine :=
  .ofLibrary ⟨[⟨"line", "[\x7b\x7b street \x7d\x7d]", by decide⟩], by decide⟩

def cardSlots : Slots :=
  Slots.ofPairs [("order", .map [("user", .map [("home", .map [("street", .string "s")]),
    ("name", .map [("first", .string "x")]), ("street", .string "t"), ("tags", .list [.string "a", .string "b"])])])]

/-- a list below the scope is entered by both; one in the place of a map is not entered by either -/
theorem rendering_below_card :
    let p : SlotPath := ⟨"order", ["user"]⟩
    p.IsValid ∧ (∀ items, cardSlots.resolve p ≠ some (.list items)) ∧
      (card.below p).body =
        "\x7b\x7b order.user.name.first \x7d\x7d, \x7b\x7b order.user.tags.1 \x7d\x7d" ++
          "\x7b\x7b> line order.user \x7d\x7d\x7b\x7b> line order.user.home \x7d\x7d" ++
          "\x7b\x7b> line order.user.tags \x7d\x7d" ∧
      (card.below p).segments = card.segments.map (Segment.below p) ∧
      (lineEngine.rendering (card.render (lineEngine.library.renderWithin ["page"]) (cardSlots.within (some p)))).2 =
        .ok "x, b[t][s][]" ∧
      lineEngine.rendering (card.render (lineEngine.library.renderWithin ["page"]) (cardSlots.within (some p))) =
        lineEngine.rendering (renderSegments (lineEngine.library.renderWithin ["page"]) cardSlots
          (card.segments.map (Segment.below p))) := by
  intro p
  have hp : p.IsValid := by decide +kernel
  have hlist : ∀ items, cardSlots.resolve p ≠ some (.list items) := by
    intro items
    cbv
    intro h
    cases h
  obtain ⟨hsegments, hrendering⟩ := (rendering_below hp hlist).2 card
  refine ⟨hp, hlist, ?_, hsegments, ?_, hrendering lineEngine ["page"]⟩
  · decide +kernel
  · decide +kernel

/-- with a list at the scope, only the path with the scope in front goes on by an index -/
example :
    let slots := Slots.ofPairs [("a", .list [.string "x"])]
    displayed ((slots.within (some ⟨"a", []⟩)).resolve ⟨"0", []⟩) = "" ∧
      displayed (slots.resolve (SlotPath.append ⟨"a", []⟩ ⟨"0", []⟩)) = "x" := by
  decide +kernel

end Template

end BlockTemplates
