/-
Which layer a slot comes from.

Slots are layered from defaults, a JSON text and pairs. A pair gives a slot a text (`SlotPair.Gives`), unless it has no
equals sign or no name in front of the first one (`SlotPair.Flawed`). Pairs are set one after another, so the last one
that gives a slot decides (`SlotPair.get?_of_setAll`), and the first one with a flaw is the error
(`SlotPair.setAll_cases`). `Slots.layered_outcome` puts the three layers together.
-/
import BlockTemplates.CommandLine.SlotPair
import BlockTemplates.Proofs.Markup.Scan
import Mathlib.Data.List.Infix

namespace BlockTemplates

/-! ## Cuts at a character -/

namespace Text

variable {c : Char} {text before after : List Char}

theorem cut?_singleton_eq_none_iff : cut? [c] text = none ↔ c ∉ text := by
  rw [cut?_eq_none_iff, List.singleton_infix_iff]

/-- a cut at a character is at its first occurrence -/
theorem cut?_singleton_eq_some_iff :
    cut? [c] text = some (before, after) ↔ text = before ++ c :: after ∧ c ∉ before := by
  constructor
  · intro h
    have hfirst := not_infix_of_cut? (List.cons_ne_nil c []) h
    rw [List.singleton_infix_iff] at hfirst
    exact ⟨by simpa using cut?_eq_some h, hfirst⟩
  · rintro ⟨rfl, hfirst⟩
    rw [← List.singleton_infix_iff] at hfirst
    have hcut : cut? [c] (before ++ [c] ++ after) = some (before, after) :=
      cut?_append rfl List.not_mem_nil hfirst after
    simpa using hcut

end Text

/-! ## One pair -/

namespace SlotPair

/-- the pair gives the slot `name` the text `value`: the name is what stands in front of the first equals sign, without
the blanks at its ends, and the value is all that stands behind it -/
def Gives (raw name value : String) : Prop :=
  ∃ before, raw.toList = before ++ '=' :: value.toList ∧ '=' ∉ before ∧ Text.trim before = name.toList

/-- why a pair gives no slot -/
inductive Flawed (raw : String) : SlotProblem → Prop
  | noSeparator (h : '=' ∉ raw.toList) : Flawed raw (.noSeparator raw)
  /-- only blanks stand in front of the first equals sign -/
  | noName {before after : List Char} (h : raw.toList = before ++ '=' :: after) (hfirst : '=' ∉ before)
      (hblank : ∀ c ∈ before, Text.isBlank c = true) : Flawed raw (.noName raw)

def Sound (raw : String) : Prop :=
  ∀ problem, ¬ Flawed raw problem

variable {raw name name' value value' : String} {problem : SlotProblem}

/-- a text has one first equals sign -/
theorem split_unique {before before' after after' : List Char} (h : before ++ '=' :: after = before' ++ '=' :: after')
    (hfirst : '=' ∉ before) (hfirst' : '=' ∉ before') : before = before' ∧ after = after' := by
  have hcut := Text.cut?_singleton_eq_some_iff.2 ⟨h, hfirst'⟩
  rw [Text.cut?_singleton_eq_some_iff.2 ⟨rfl, hfirst⟩] at hcut
  cases hcut
  exact ⟨rfl, rfl⟩

theorem Gives.unique (h : Gives raw name value) (h' : Gives raw name' value') : name = name' ∧ value = value' := by
  obtain ⟨before, hraw, hfirst, hname⟩ := h
  obtain ⟨before', hraw', hfirst', hname'⟩ := h'
  obtain ⟨rfl, hvalue⟩ := split_unique (hraw.symm.trans hraw') hfirst hfirst'
  exact ⟨String.toList_inj.1 (hname.symm.trans hname'), String.toList_inj.1 hvalue⟩

/-- a pair is refused for its flaw, or it is read as what it gives -/
theorem ofString_cases (raw : String) :
    (∃ problem, Flawed raw problem ∧ ofString raw = .error (.invalidSlots problem)) ∨
      Sound raw ∧ ∃ name value, Gives raw name value ∧ ofString raw = .ok (name, value) := by
  rcases hcut : Text.cut? ['='] raw.toList with _ | ⟨before, after⟩
  · refine .inl ⟨_, .noSeparator (Text.cut?_singleton_eq_none_iff.1 hcut), ?_⟩
    simp only [ofString, hcut]
  obtain ⟨hraw, hfirst⟩ := Text.cut?_singleton_eq_some_iff.1 hcut
  by_cases hblank : before.all Text.isBlank = true
  · refine .inl ⟨_, .noName hraw hfirst (List.all_eq_true.1 hblank), ?_⟩
    simp only [ofString, hcut, Text.isEmpty_trim, hblank, if_true]
  · refine .inr ⟨?_, String.ofList (Text.trim before), String.ofList after, ⟨before, ?_, hfirst, ?_⟩, ?_⟩
    · intro problem hflaw
      cases hflaw with
      | noSeparator hnone => exact hnone (by simp [hraw])
      | noName hraw' hfirst' hblank' =>
        obtain ⟨rfl, -⟩ := split_unique (hraw.symm.trans hraw') hfirst hfirst'
        exact hblank (List.all_eq_true.2 hblank')
    · rw [hraw, String.toList_ofList]
    · rw [String.toList_ofList]
    · simp only [ofString, hcut, Text.isEmpty_trim, if_neg hblank]

/-! ## Pairs in sequence -/

/-- the last of the pairs that give the slot `name` a text gives it the text `value` -/
def LastGives (pairs : List String) (name value : String) : Prop :=
  ∃ before raw after, pairs = before ++ raw :: after ∧ Gives raw name value ∧
    ∀ later ∈ after, ∀ other, ¬ Gives later name other

/-- the first of the pairs that have a flaw has this one -/
def FirstFlaw (pairs : List String) (problem : SlotProblem) : Prop :=
  ∃ before raw after, pairs = before ++ raw :: after ∧ (∀ earlier ∈ before, Sound earlier) ∧ Flawed raw problem

theorem LastGives.cons {pairs : List String} (h : LastGives pairs name value) (first : String) :
    LastGives (first :: pairs) name value := by
  obtain ⟨before, raw, after, rfl, hgives, hlater⟩ := h
  exact ⟨first :: before, raw, after, rfl, hgives, hlater⟩

theorem FirstFlaw.cons {pairs : List String} (h : FirstFlaw pairs problem) {first : String} (hfirst : Sound first) :
    FirstFlaw (first :: pairs) problem := by
  obtain ⟨before, raw, after, rfl, hearlier, hflaw⟩ := h
  refine ⟨first :: before, raw, after, rfl, ?_, hflaw⟩
  intro earlier hmem
  rcases List.mem_cons.1 hmem with rfl | hmem
  · exact hfirst
  · exact hearlier earlier hmem

theorem FirstFlaw.exists_flawed {pairs : List String} (h : FirstFlaw pairs problem) :
    ∃ raw ∈ pairs, ∃ problem, Flawed raw problem := by
  obtain ⟨before, raw, after, rfl, -, hflaw⟩ := h
  exact ⟨raw, by simp, problem, hflaw⟩

/-- a slot has the text of the last pair that gives it one, and else what it had -/
theorem get?_of_setAll {pairs : List String} {slots slots' : Slots} (h : setAll pairs slots = .ok slots')
    (name : String) :
    (∃ value, LastGives pairs name value ∧ slots'.get? name = some (.string value)) ∨
      (∀ raw ∈ pairs, ∀ value, ¬ Gives raw name value) ∧ slots'.get? name = slots.get? name := by
  induction pairs generalizing slots with
  | nil =>
    cases h
    exact .inr ⟨by simp, rfl⟩
  | cons raw rest ih =>
    rcases ofString_cases raw with ⟨problem, -, hread⟩ | ⟨-, given, value, hgives, hread⟩
    · simp only [setAll, hread] at h
      cases h
    simp only [setAll, hread] at h
    rcases ih h with ⟨later, hlast, hget⟩ | ⟨hnone, hget⟩
    · exact .inl ⟨later, hlast.cons raw, hget⟩
    rw [Slots.get?_insert] at hget
    by_cases hname : given = name
    · subst hname
      rw [if_pos rfl] at hget
      exact .inl ⟨value, ⟨[], raw, rest, rfl, hgives, hnone⟩, hget⟩
    · rw [if_neg hname] at hget
      refine .inr ⟨?_, hget⟩
      intro other hother text hgives'
      rcases List.mem_cons.1 hother with rfl | hmem
      · exact hname (hgives.unique hgives').1
      · exact hnone other hmem text hgives'

/-- pairs without a flaw are all set, and else the first flaw is the error -/
theorem setAll_cases (pairs : List String) (slots : Slots) :
    (∃ problem, FirstFlaw pairs problem ∧ setAll pairs slots = .error (.invalidSlots problem)) ∨
      (∀ raw ∈ pairs, Sound raw) ∧ ∃ slots', setAll pairs slots = .ok slots' := by
  induction pairs generalizing slots with
  | nil => exact .inr ⟨by simp, slots, rfl⟩
  | cons raw rest ih =>
    rcases ofString_cases raw with ⟨problem, hflaw, hread⟩ | ⟨hsound, name, value, -, hread⟩
    · refine .inl ⟨problem, ⟨[], raw, rest, rfl, by simp, hflaw⟩, ?_⟩
      simp only [setAll, hread]
      rfl
    have hset : setAll (raw :: rest) slots = setAll rest (slots.insert name (.string value)) := by
      simp only [setAll, hread]
      rfl
    rw [hset]
    rcases ih (slots.insert name (.string value)) with ⟨problem, hfirst, herror⟩ | ⟨hrest, slots', hok⟩
    · exact .inl ⟨problem, hfirst.cons hsound, herror⟩
    · refine .inr ⟨?_, slots', hok⟩
      intro other hother
      rcases List.mem_cons.1 hother with rfl | hmem
      · exact hsound
      · exact hrest other hmem

end SlotPair

/-! ## The layers -/

namespace Slots

/-- the slots between the defaults and the pairs: those of the JSON text, or none without one -/
inductive JsonLayer : Option String → Slots → Prop
  | absent : JsonLayer none empty
  | given {text : String} {slots : Slots} (h : ofJson text = .ok slots) : JsonLayer (some text) slots

def JsonRejected (json : Option String) (fault : Json.ReadError) : Prop :=
  ∃ text, json = some text ∧ ofJson text = .error fault

variable {defaults upper : Slots} {json : Option String} {fault : Json.ReadError}

theorem rejected_or_layer (json : Option String) :
    (∃ fault, JsonRejected json fault) ∨ ∃ upper, JsonLayer json upper := by
  cases json with
  | none => exact .inr ⟨empty, .absent⟩
  | some text =>
    rcases hread : ofJson text with fault | upper
    · exact .inl ⟨fault, text, rfl, hread⟩
    · exact .inr ⟨upper, .given hread⟩

theorem JsonLayer.not_rejected (h : JsonLayer json upper) : ¬ JsonRejected json fault := by
  rintro ⟨text, rfl, hrejected⟩
  cases h with
  | given hread =>
    rw [hread] at hrejected
    cases hrejected

theorem layered_of_rejected (h : JsonRejected json fault) (pairs : List String) :
    defaults.layered json pairs = .error (.invalidSlots (.json fault)) := by
  obtain ⟨text, rfl, hrejected⟩ := h
  simp only [layered, read, hrejected]
  rfl

/-- the pairs are set over the slots of the JSON text, and these lie over the defaults -/
theorem layered_of_layer (h : JsonLayer json upper) (pairs : List String) :
    defaults.layered json pairs = SlotPair.setAll pairs (defaults.extend upper) := by
  cases h with
  | absent => rfl
  | given hread =>
    simp only [layered, read, hread]
    rfl

/-- **The last layer that has a slot gives its whole value.** Slots are not layered exactly if the JSON text is rejected
or a pair has no equals sign or only blanks before its first one; the error is that of the JSON text, and else that of
the first such pair. Otherwise the value of a slot is the text behind the first equals sign of the last pair that names
the slot; else what it is in the JSON text; else what it is by default; else there is no such slot. -/
theorem layered_outcome (defaults : Slots) (json : Option String) (pairs : List String) :
    ((∃ e, defaults.layered json pairs = .error e) ↔
      (∃ fault, JsonRejected json fault) ∨ ∃ raw ∈ pairs, ∃ problem, SlotPair.Flawed raw problem) ∧
    ((∃ fault, JsonRejected json fault ∧ defaults.layered json pairs = .error (.invalidSlots (.json fault))) ∨
      ∃ upper, JsonLayer json upper ∧
        ((∃ problem, SlotPair.FirstFlaw pairs problem ∧
            defaults.layered json pairs = .error (.invalidSlots problem)) ∨
          ∃ slots, defaults.layered json pairs = .ok slots ∧ ∀ name,
            (∃ value, SlotPair.LastGives pairs name value ∧ slots.get? name = some (.string value)) ∨
              (∀ raw ∈ pairs, ∀ value, ¬ SlotPair.Gives raw name value) ∧
                slots.get? name = (upper.get? name).or (defaults.get? name))) := by
  rcases rejected_or_layer json with ⟨fault, hrejected⟩ | ⟨upper, hupper⟩
  · have herror : defaults.layered json pairs = .error (.invalidSlots (.json fault)) :=
      layered_of_rejected hrejected pairs
    exact ⟨iff_of_true ⟨_, herror⟩ (.inl ⟨fault, hrejected⟩), .inl ⟨fault, hrejected, herror⟩⟩
  rw [layered_of_layer hupper]
  rcases SlotPair.setAll_cases pairs (defaults.extend upper) with ⟨problem, hfirst, herror⟩ | ⟨hsound, slots, hok⟩
  · exact ⟨iff_of_true ⟨_, herror⟩ (.inr hfirst.exists_flawed), .inr ⟨upper, hupper, .inl ⟨problem, hfirst, herror⟩⟩⟩
  · refine ⟨iff_of_false ?_ ?_, .inr ⟨upper, hupper, .inr ⟨slots, hok, ?_⟩⟩⟩
    · rintro ⟨e, herror⟩
      rw [hok] at herror
      cases herror
    · rintro (⟨fault, hrejected⟩ | ⟨raw, hmem, problem, hflaw⟩)
      · exact hupper.not_rejected hrejected
      · exact hsound raw hmem problem hflaw
    · intro name
      rw [← get?_extend]
      exact SlotPair.get?_of_setAll hok name

/-- a pair replaces the table of the JSON text, and its value keeps blanks and equals signs -/
example :
    let defaults := empty.insert "size" (.string "s")
    let json := "\x7b\"page\": \x7b\"title\": \"a\"\x7d, \"size\": true\x7d"
    (defaults.layered (some json) ["x=1", " page = b=c", "x=2"]).map Slots.json =
      .ok "\x7b\"page\":\" b=c\",\"size\":true,\"x\":\"2\"\x7d" := by
  decide +kernel

end Slots

end BlockTemplates
