/-
What the output of a template depends on: the slots, and what `nested` gives for the templates it invokes.

- `renderSegments_congr`: a relation between two ways of rendering, perhaps with other slots, that holds for what the
  segments ask for holds for all of them, if sequencing respects it (`Sequential`). `render_related` is the case of a
  relation that holds for the invoked templates with any slots.
- `nested_ok_of_render_ok`: if a template is rendered, every template it invokes has been rendered for it.
- `nested_error_of_render_error`: if a template is not rendered, one it invokes has failed with the same error.
-/
import BlockTemplates.Template.Basic

namespace BlockTemplates

/-- sequencing respects a relation of computations of texts, which may be of two kinds -/
structure Sequential {m m' : Type → Type} [Monad m] [Monad m'] (R : m String → m' String → Prop) : Prop where
  pure : ∀ s : String, R (pure s) (pure s)
  bind : ∀ {x : m String} {y : m' String} {f : String → m String} {g : String → m' String},
    R x y → (∀ s, R (f s) (g s)) → R (x >>= f) (y >>= g)

theorem sequential_eq {m : Type → Type} [Monad m] : Sequential fun x y : m String => x = y where
  pure s := rfl
  bind hxy hfg := by rw [hxy, funext hfg]

section Related

variable {m m' : Type → Type} [Monad m] [Monad m'] {R : m String → m' String → Prop}
variable {f : String → Slots → m String} {g : String → Slots → m' String}

/-- segments are rendered in related ways if the slots give them the same values, and the templates they invoke are
rendered in related ways with what these get of the slots -/
theorem renderSegments_congr (hR : Sequential R) (segments : List Segment) {a b : Slots}
    (hslot : ∀ path, .slot path ∈ segments → a.resolve path = b.resolve path)
    (hinvoke : ∀ n scope, .invoke n scope ∈ segments → R (f n (a.within scope)) (g n (b.within scope))) :
    R (renderSegments f a segments) (renderSegments g b segments) := by
  induction segments with
  | nil => exact hR.pure ""
  | cons segment rest ih =>
    refine hR.bind ?_ fun first => hR.bind ?_ fun others => hR.pure (first ++ others)
    · cases segment with
      | text cs => exact hR.pure cs
      | slot path =>
        rw [Segment.render, Segment.render, hslot path List.mem_cons_self]
        exact hR.pure _
      | invoke n scope => exact hinvoke n scope List.mem_cons_self
    · exact ih (fun path h => hslot path (List.mem_cons_of_mem segment h))
        (fun n scope h => hinvoke n scope (List.mem_cons_of_mem segment h))

theorem mem_invoked {n : String} {scope : Option SlotPath} {segments : List Segment} (h : .invoke n scope ∈ segments) :
    n ∈ segments.filterMap Segment.invoked? :=
  List.mem_filterMap.2 ⟨_, h, rfl⟩

theorem renderSegments_related (hR : Sequential R) (segments : List Segment)
    (h : ∀ n ∈ segments.filterMap Segment.invoked?, ∀ s, R (f n s) (g n s)) (slots : Slots) :
    R (renderSegments f slots segments) (renderSegments g slots segments) :=
  renderSegments_congr hR segments (fun _ _ => rfl) fun n _ hmem => h n (mem_invoked hmem) _

/-- two ways of rendering are related if they are on the templates it invokes -/
theorem Template.render_related (hR : Sequential R) (t : Template)
    (h : ∀ n ∈ t.dependencies, ∀ s, R (f n s) (g n s)) (slots : Slots) :
    R (t.render f slots) (t.render g slots) :=
  renderSegments_related hR t.segments h slots

end Related

/-! ## Rendering that may fail -/

/-- the second computation succeeds with the same text where the first succeeds -/
theorem sequential_ok {ε ε' : Type} :
    Sequential fun (x : Except ε String) (y : Except ε' String) => ∀ s, x = .ok s → y = .ok s where
  pure s s' h := by
    cases h
    rfl
  bind {x y f g} hxy hfg s h := by
    cases x with
    | error e => cases h
    | ok a =>
      rw [hxy a rfl]
      exact hfg a s h

theorem nested_ok_of_renderSegments_ok {ε : Type} {f : String → Slots → Except ε String} {slots : Slots}
    {segments : List Segment} {output : String} (h : renderSegments f slots segments = .ok output) :
    ∀ n ∈ segments.filterMap Segment.invoked?, ∃ s o, f n s = .ok o := by
  induction segments generalizing output with
  | nil => simp
  | cons segment rest ih =>
    simp only [renderSegments] at h
    cases hfirst : segment.render f slots with
    | error e =>
      rw [hfirst] at h
      cases h
    | ok first =>
      cases hrest : renderSegments f slots rest with
      | error e =>
        rw [hfirst, hrest] at h
        cases h
      | ok others =>
        intro n hn
        cases segment with
        | invoke name scope =>
          rcases List.mem_cons.1 hn with rfl | hn
          · exact ⟨_, _, hfirst⟩
          · exact ih hrest n hn
        | _ => exact ih hrest n hn

/-- a template is rendered only if the templates it invokes are -/
theorem Template.nested_ok_of_render_ok {ε : Type} {f : String → Slots → Except ε String} {slots : Slots}
    {t : Template} {output : String} (h : t.render f slots = .ok output) :
    ∀ n ∈ t.dependencies, ∃ s o, f n s = .ok o :=
  nested_ok_of_renderSegments_ok h

theorem nested_error_of_renderSegments_error {ε : Type} {f : String → Slots → Except ε String} {slots : Slots}
    {segments : List Segment} {e : ε} (h : renderSegments f slots segments = .error e) :
    ∃ n ∈ segments.filterMap Segment.invoked?, ∃ scope, f n (slots.within scope) = .error e := by
  induction segments with
  | nil => cases h
  | cons segment rest ih =>
    simp only [renderSegments] at h
    have htail : ∀ first, segment.render f slots = .ok first → ∃ n ∈ (segment :: rest).filterMap Segment.invoked?,
        ∃ scope, f n (slots.within scope) = .error e := by
      intro first hfirst
      cases hrest : renderSegments f slots rest with
      | error e' =>
        rw [hfirst, hrest] at h
        cases h
        obtain ⟨n, hn, hscope⟩ := ih hrest
        rw [List.filterMap_cons]
        split
        · exact ⟨n, hn, hscope⟩
        · exact ⟨n, List.mem_cons_of_mem _ hn, hscope⟩
      | ok others =>
        rw [hfirst, hrest] at h
        cases h
    cases segment with
    | invoke name scope =>
      cases hfirst : (Segment.invoke name scope).render f slots with
      | error e' =>
        rw [hfirst] at h
        cases h
        exact ⟨name, List.mem_cons_self, scope, hfirst⟩
      | ok first => exact htail first hfirst
    | text cs => exact htail _ rfl
    | slot path => exact htail _ rfl

/-- a template fails only with the error of a template it invokes, on slots that it passes on -/
theorem Template.nested_error_of_render_error {ε : Type} {f : String → Slots → Except ε String} {slots : Slots}
    {t : Template} {e : ε} (h : t.render f slots = .error e) :
    ∃ n ∈ t.dependencies, ∃ scope, f n (slots.within scope) = .error e :=
  nested_error_of_renderSegments_error h

end BlockTemplates
