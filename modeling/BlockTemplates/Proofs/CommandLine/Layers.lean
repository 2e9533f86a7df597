/-
The slots of the command line are finite.

Three layers go into them: the slots of the configuration, which are tested when the configuration is read
(`Config.finite_ofToml`), those of a JSON text, whose numbers are finite (`Slots.finite_ofJson`), and pairs, whose
values are strings. `Slots.checkFinite_of_layered` says what this means for a render.
-/
import BlockTemplates.CommandLine.SlotPair
import BlockTemplates.Config
import BlockTemplates.Proofs.Engine.Finite
import BlockTemplates.Proofs.Json.Finite

namespace BlockTemplates

/-! ## The slots of a configuration -/

namespace Config

theorem forall_finite_of_notFinite? {entries : List (String × Value)} (h : notFinite? entries = none) :
    ∀ e ∈ entries, e.2.isFinite = true := by
  intro e he
  rw [notFinite?, List.findSome?_eq_none_iff] at h
  exact Value.isFinite_iff.2 (Option.map_eq_none_iff.1 (h e he))

theorem finite_of_readSlots {v : Toml.Value} {slots : Slots} (h : readSlots v = .ok slots) : slots.Finite := by
  unfold readSlots at h
  split at h
  · split at h
    · cases h
    · split at h
      · cases h
      · next hfinite =>
        cases h
        exact Slots.finite_ofPairs (forall_finite_of_notFinite? hfinite)
  · cases h
    exact Slots.finite_empty.insert rfl _
  · cases h

theorem finite_of_set {config config' : Config} (hconfig : config.slots.Finite) {name : String} {v : Toml.Value}
    (h : config.set name v = .ok config') : config'.slots.Finite := by
  unfold set at h
  split at h
  · rcases hread : readSources v with e | sources <;> rw [hread] at h <;> cases h
    exact hconfig
  · rcases hread : readPolicy v with e | policy <;> rw [hread] at h <;> cases h
    exact hconfig
  · rcases hread : readSlots v with e | slots <;> rw [hread] at h <;> cases h
    exact finite_of_readSlots hread
  · cases h

theorem finite_of_setAll {entries : List (String × Toml.Value)} {config config' : Config}
    (hconfig : config.slots.Finite) (h : setAll entries config = .ok config') : config'.slots.Finite := by
  induction entries generalizing config with
  | nil =>
    cases h
    exact hconfig
  | cons e rest ih =>
    obtain ⟨next, hset, hrest⟩ := exists_of_bind_eq_ok h
    exact ih (finite_of_set hconfig hset) hrest

/-- the default configuration, and every one that is read, has finite slots -/
theorem finite_ofToml {config : Config} (h : config = default ∨ ∃ text, ofToml text = .ok config) :
    config.slots.Finite := by
  rcases h with rfl | ⟨text, h⟩
  · exact Slots.finite_empty
  · unfold ofToml at h
    split at h
    · exact finite_of_setAll Slots.finite_empty h
    · cases h

end Config

/-! ## The layers -/

theorem SlotPair.finite_of_setAll {pairs : List String} {slots slots' : Slots} (hslots : slots.Finite)
    (h : setAll pairs slots = .ok slots') : slots'.Finite := by
  induction pairs generalizing slots with
  | nil =>
    cases h
    exact hslots
  | cons raw rest ih =>
    obtain ⟨⟨name, value⟩, -, hrest⟩ := exists_of_bind_eq_ok h
    exact ih (hslots.insert rfl name) hrest

namespace Slots

theorem finite_of_read {text : String} {slots : Slots} (h : read text = .ok slots) : slots.Finite := by
  unfold read at h
  rcases hread : ofJson text with e | slots' <;> rw [hread] at h <;> cases h
  exact finite_ofJson hread

theorem finite_of_layered {defaults slots : Slots} (hdefaults : defaults.Finite) {json : Option String}
    {pairs : List String} (h : defaults.layered json pairs = .ok slots) : slots.Finite := by
  unfold layered at h
  cases json with
  | none => exact SlotPair.finite_of_setAll hdefaults h
  | some text =>
    obtain ⟨lower, hlower, hpairs⟩ := exists_of_bind_eq_ok h
    rcases hread : read text with e | upper <;> rw [hread] at hlower <;> cases hlower
    exact SlotPair.finite_of_setAll (hdefaults.extend (finite_of_read hread)) hpairs

/-- **The command line renders finite slots only.** Slots that are layered from a configuration, a JSON text and pairs
have no number that is NaN or infinite. Whatever the library and the cache of an engine, at every moment of a render of
these slots, at whatever depth, all slots are finite, and whatever a nested render or the whole render fails with is a
name that is missing or that is being rendered already. -/
theorem checkFinite_of_layered {config : Config} (hconfig : config = .default ∨ ∃ text, Config.ofToml text = .ok config)
    {json : Option String} {pairs : List String} {slots : Slots} (h : config.slots.layered json pairs = .ok slots) :
    slots.checkFinite = .ok () ∧
      ∀ (engine : Engine) (name : String),
        (∀ m, engine.library.Steps (.start [] name slots engine.cache) m →
          (∀ frame ∈ m.frames, frame.slots.checkFinite = .ok ()) ∧
          (∀ n s, m.control = .call n s → s.checkFinite = .ok ()) ∧
          ∀ n s e, m.control = .back n s (.error e) →
            (∃ missing, e = .missingTemplate missing) ∨ ∃ again chain, e = .renderCycle again chain) ∧
        ∀ e, (engine.render name slots).2 = .error e →
          (∃ missing, e = .missingTemplate missing) ∨ ∃ again chain, e = .renderCycle again chain := by
  have hslots := finite_of_layered (Config.finite_ofToml hconfig) h
  refine ⟨checkFinite_eq_ok_iff.2 hslots, fun engine name => ⟨fun m hm => ?_, fun e he => ?_⟩⟩
  · obtain ⟨hframes, hcontrol⟩ := (Moment.finite_start hslots [] name engine.cache).steps hm
    refine ⟨fun frame hframe => checkFinite_eq_ok_iff.2 (hframes frame hframe), fun n s hcall => ?_,
      fun n s e hback => ?_⟩
    · rw [hcall] at hcontrol
      exact checkFinite_eq_ok_iff.2 hcontrol
    · rw [hback] at hcontrol
      exact hcontrol
  · exact Engine.render_error_of_finite hslots he

/-- all three layers, with great numbers in nested tables and lists, and a template that invokes itself with a part of
the slots -/
theorem checkFinite_of_layered_nested :
    let toml := "[slots]\nratio = 1e308\n[slots.page]\nall = [1, [-0.5]]\n"
    let json := "\x7b\"page\": \x7b\"list\": [1.5e308, \x7b\"low\": 25\x7d]\x7d\x7d"
    let page : Template := ⟨"page", "\x7b\x7b ratio \x7d\x7d\x7b\x7b> page page \x7d\x7d", by decide⟩
    let engine := Engine.ofLibrary ⟨[page], by decide⟩
    ∃ config slots, Config.ofToml toml = .ok config ∧ config.slots.layered (some json) ["x = inf"] = .ok slots ∧
      slots.entries.map Prod.fst = ["page", "ratio", "x"] ∧ slots.checkFinite = .ok () ∧
      ∀ e, (engine.render "page" slots).2 = .error e →
        (∃ missing, e = .missingTemplate missing) ∨ ∃ again chain, e = .renderCycle again chain := by
  intro toml json page engine
  have hkeys : ((Config.ofToml toml >>= fun config => config.slots.layered (some json) ["x = inf"]).map
      fun slots => slots.entries.map Prod.fst) = .ok ["page", "ratio", "x"] := by decide +kernel
  rcases hlayers : (Config.ofToml toml >>= fun config => config.slots.layered (some json) ["x = inf"]) with e | slots
  · rw [hlayers] at hkeys
    cases hkeys
  · rw [hlayers] at hkeys
    obtain ⟨config, hconfig, hslots⟩ := exists_of_bind_eq_ok hlayers
    obtain ⟨hfinite, hrender⟩ := checkFinite_of_layered (.inr ⟨toml, hconfig⟩) hslots
    exact ⟨config, slots, hconfig, hslots, Except.ok.inj hkeys, hfinite, (hrender engine "page").2⟩

end Slots

end BlockTemplates
