/-
Templates that are rebuilt from what is shown of them.

A template that is made of what is shown of another has the same segments (`segments_rebuilt`). Renders ask a library
for nothing but the names and the segments of its templates: libraries with the same `outline` render alike
(`renderWithin_of_outline`). So the rebuilt template stands for the other in every library, under every policy:
`rebuilt_faithful`.
-/
import BlockTemplates.Proofs.Engine.Rendering
import BlockTemplates.Proofs.Engine.Run
import BlockTemplates.Proofs.Template.Shown

namespace BlockTemplates

namespace Template

/-- the template of what is shown of the segments of `t` -/
def rebuilt (t : Template) : Template :=
  ⟨t.name, shown t.segments, t.validName⟩

theorem segments_rebuilt (t : Template) : t.rebuilt.segments = t.segments :=
  tokenize_shown t.body

theorem make_shown (t : Template) : make t.name (shown t.segments) = .ok t.rebuilt := by
  rw [make, dif_pos t.validName]
  rfl

end Template

/-! ## What renders ask of a library -/

namespace Library

/-- the names and the segments of the templates, in order -/
def outline (lib : Library) : List (String × List Segment) :=
  lib.templates.map fun t => (t.name, t.segments)

theorem map_segments_find? (lib : Library) (name : String) :
    (lib.find? name).map Template.segments = (lib.outline.find? fun e => e.1 = name).map Prod.snd := by
  rw [outline, List.find?_map, Option.map_map]
  rfl

theorem outline_append {lib : Library} {t : Template} (fresh : t.name ∉ lib.names) :
    (lib.append t fresh).outline = lib.outline ++ [(t.name, t.segments)] := by
  simp only [outline, append, List.map_append, List.map_cons, List.map_nil]

theorem outline_replace (lib : Library) (t : Template) :
    (lib.replace t).outline = lib.outline.map fun e => if e.1 = t.name then (t.name, t.segments) else e := by
  simp only [outline, replace, replaceIn, List.map_map]
  refine List.map_congr_left fun old _ => ?_
  simp only [Function.comp]
  split <;> rfl

variable {lib lib' : Library}

theorem find?_of_outline (h : lib.outline = lib'.outline) (name : String) :
    (lib.find? name).map Template.segments = (lib'.find? name).map Template.segments := by
  rw [map_segments_find?, map_segments_find?, h]

/-- libraries with the same outline render alike -/
theorem renderWithin_of_outline (h : lib.outline = lib'.outline) (chain : List String) (name : String)
    (slots : Slots) : lib.renderWithin chain name slots = lib'.renderWithin chain name slots := by
  have hfind' : ∀ {name t}, lib.find? name = some t → ∃ t', lib'.find? name = some t' ∧ t'.segments = t.segments := by
    intro name t hfind
    have hsegments := find?_of_outline h name
    rw [hfind] at hsegments
    exact Option.map_eq_some_iff.1 hsegments.symm
  induction chain, name, slots using Library.renderWithin.induct lib with
  | case1 chain name slots hfind =>
    have hnone := find?_of_outline h name
    rw [hfind] at hnone
    rw [renderWithin_missing hfind, renderWithin_missing (Option.map_eq_none_iff.1 hnone.symm)]
  | case2 chain name slots t hfind hmem =>
    obtain ⟨t', ht', -⟩ := hfind' hfind
    rw [renderWithin_active hfind hmem, renderWithin_active ht' hmem]
  | case3 chain name slots t hfind hmem e hkey =>
    obtain ⟨t', ht', -⟩ := hfind' hfind
    rw [renderWithin_invalid hfind hmem hkey, renderWithin_invalid ht' hmem hkey]
  | case4 chain name slots t hfind hmem key hkey ih =>
    obtain ⟨t', ht', hsegments⟩ := hfind' hfind
    have hnested : lib.renderWithin (chain ++ [name]) = lib'.renderWithin (chain ++ [name]) :=
      funext fun n => funext fun s => ih n s
    rw [renderWithin_cached hfind hmem hkey, renderWithin_cached ht' hmem hkey, hnested, Template.render,
      Template.render, hsegments]

/-- adding a rebuilt template fails as adding the template does, and leaves the same outline -/
theorem add_rebuilt (lib : Library) (t : Template) (policy : Policy) :
    (lib.add t.rebuilt policy).map outline = (lib.add t policy).map outline := by
  unfold add
  by_cases hmem : t.name ∈ lib.names
  · have hmem' : t.rebuilt.name ∈ lib.names := hmem
    rw [dif_pos hmem, dif_pos hmem']
    cases policy with
    | error => rfl
    | overwrite =>
      have houtline : (lib.replace t.rebuilt).outline = (lib.replace t).outline := by
        rw [outline_replace, outline_replace, t.segments_rebuilt]
        rfl
      exact congrArg Except.ok houtline
    | ignore => rfl
  · have hmem' : t.rebuilt.name ∉ lib.names := hmem
    have houtline : (lib.append t.rebuilt hmem').outline = (lib.append t hmem).outline := by
      rw [outline_append, outline_append, t.segments_rebuilt]
      rfl
    rw [dif_neg hmem, dif_neg hmem']
    exact congrArg Except.ok houtline

end Library

/-! ## Engines -/

namespace Engine

/-- engines with the same cache, on libraries with the same outline, render alike -/
theorem renderAll_of_outline {a b : Engine} (hlib : a.library.outline = b.library.outline) (hcache : a.cache = b.cache)
    (calls : List (String × Slots)) :
    (a.renderAll calls).2 = (b.renderAll calls).2 ∧ (a.renderAll calls).1.cache = (b.renderAll calls).1.cache := by
  induction calls generalizing a b with
  | nil => exact ⟨rfl, hcache⟩
  | cons call calls ih =>
    obtain ⟨name, slots⟩ := call
    have hon : (a.library.renderWithin [] name slots).on a.cache =
        (b.library.renderWithin [] name slots).on b.cache := by
      rw [Library.renderWithin_of_outline hlib, hcache]
    have hresult : (a.render name slots).2 = (b.render name slots).2 := congrArg Prod.fst hon
    obtain ⟨hresults, hlast⟩ := ih (a := (a.render name slots).1) (b := (b.render name slots).1) hlib
      (congrArg Prod.snd hon)
    refine ⟨?_, hlast⟩
    calc (a.renderAll ((name, slots) :: calls)).2
        = (a.render name slots).2 :: ((a.render name slots).1.renderAll calls).2 := rfl
      _ = (b.render name slots).2 :: ((b.render name slots).1.renderAll calls).2 := by rw [hresult, hresults]
      _ = (b.renderAll ((name, slots) :: calls)).2 := rfl

theorem add_rebuilt (engine : Engine) (t : Template) (policy : Policy) :
    (engine.add t.rebuilt policy).2 = (engine.add t policy).2 ∧
      (engine.add t.rebuilt policy).1.library.outline = (engine.add t policy).1.library.outline ∧
      (engine.add t.rebuilt policy).1.cache = (engine.add t policy).1.cache := by
  have hadd := engine.library.add_rebuilt t policy
  unfold add
  rcases hfirst : engine.library.add t.rebuilt policy with e | lib <;>
    rcases hsecond : engine.library.add t policy with e' | lib' <;> rw [hfirst, hsecond] at hadd
  · obtain rfl := Except.error.inj hadd
    exact ⟨rfl, rfl, rfl⟩
  · cases hadd
  · cases hadd
  · exact ⟨rfl, Except.ok.inj hadd, rfl⟩

end Engine

/-- **What is shown of a template is a faithful source.** A body is read as the same segments when its segments are
shown and read again, so what is shown of them is shown again. The template of what is shown invokes the same templates,
and it is rendered alike on every engine: as it stands, and in the library in the place of the other, where no renders,
of any templates and with anything cached, tell the two apart. -/
theorem Template.rebuilt_faithful :
    (∀ body, tokenize (shown (tokenize body)) = tokenize body ∧
      shown (tokenize (shown (tokenize body))) = shown (tokenize body)) ∧
    ∀ t : Template, make t.name (shown t.segments) = .ok t.rebuilt ∧ t.rebuilt.dependencies = t.dependencies ∧
      ∀ engine : Engine,
        (∀ slots, engine.renderTemplate t.rebuilt slots = engine.renderTemplate t slots) ∧
        ∀ policy, (engine.add t.rebuilt policy).2 = (engine.add t policy).2 ∧
          ∀ calls,
            ((engine.add t.rebuilt policy).1.renderAll calls).2 = ((engine.add t policy).1.renderAll calls).2 ∧
            ((engine.add t.rebuilt policy).1.renderAll calls).1.cache =
              ((engine.add t policy).1.renderAll calls).1.cache := by
  constructor
  · intro body
    have hbody := tokenize_shown body
    exact ⟨hbody, congrArg shown hbody⟩
  · intro t
    have hsegments := t.segments_rebuilt
    have hdependencies : t.rebuilt.dependencies = t.dependencies := by rw [dependencies, dependencies, hsegments]
    refine ⟨t.make_shown, hdependencies, fun engine => ⟨fun slots => ?_, fun policy => ?_⟩⟩
    · rw [Engine.renderTemplate, Engine.renderTemplate, render, render, hsegments]
    · obtain ⟨hresult, hlib, hcache⟩ := engine.add_rebuilt t policy
      exact ⟨hresult, Engine.renderAll_of_outline hlib hcache⟩

end BlockTemplates
