/-
What is read from canonical JSON.

The reader takes the text of a value up to its end and recovers the value, with the numbers that `Number.reread` makes of
its numbers (`readValue_value`). It needs the fuel of the text twice and as many levels as containers nest. A document is
read slot by slot in the same way: `ofJson_json`.
-/
import BlockTemplates.Json.Read
import BlockTemplates.Proofs.Engine.Fingerprint
import BlockTemplates.Proofs.Json.Reread
import BlockTemplates.Proofs.Value.Numbers

namespace BlockTemplates

namespace Json

open Numeral (Delimits)

/-! ## What stands in front of a value and behind it -/

theorem isSpace_eq_false {c : Char} (hblank : c ≠ ' ') (hline : c ≠ '\n') (htab : c ≠ '\t') (hreturn : c ≠ '\r') :
    isSpace c = false := by
  simp [isSpace, hblank, hline, htab, hreturn]

theorem skip_cons {c : Char} (h : isSpace c = false) (cs : List Char) : skip (c :: cs) = c :: cs :=
  List.dropWhile_cons_of_neg (by rw [h]; exact Bool.false_ne_true)

theorem delimits_andMore {α : Type} {write : List α → List Char} {close : Char} (hclose : close = ']' ∨ close = '\x7d')
    (xs : List α) (r : List Char) : Delimits (andMore write xs ++ close :: r) := by
  cases xs with
  | nil => exact ⟨close, r, rfl, .inr hclose⟩
  | cons x xs => exact ⟨',', _, rfl, .inl rfl⟩

/-- the text behind the quote of the first key of an object -/
def behindQuote (k : String) (v : Value) (entries : List (String × Value)) (r : List Char) : List Char :=
  k.toList.flatMap escapeChar ++ '"' :: ':' :: (value v ++ (andMore members entries ++ '\x7d' :: r))

theorem members_append (k : String) (v : Value) (entries : List (String × Value)) (r : List Char) :
    members ((k, v) :: entries) ++ '\x7d' :: r = '"' :: behindQuote k v entries r := by
  rw [members_cons]
  simp [string, behindQuote]

theorem andMore_members_append (k : String) (v : Value) (entries : List (String × Value)) (r : List Char) :
    andMore members ((k, v) :: entries) ++ '\x7d' :: r = ',' :: '"' :: behindQuote k v entries r :=
  congrArg (',' :: ·) (members_append k v entries r)

theorem length_members (k : String) (v : Value) (entries : List (String × Value)) :
    (members ((k, v) :: entries)).length =
      (string k.toList).length + (1 + ((value v).length + (andMore members entries).length)) := by
  rw [members_cons]
  simp only [List.length_append, List.length_cons]
  omega

/-- a value starts with a character that is no blank and closes no list -/
theorem value_start {v : Value} (h : v.notFinite? = none) :
    ∃ c cs, value v = c :: cs ∧ isSpace c = false ∧ c ≠ ']' := by
  obtain ⟨c, cs, hc, hkind⟩ := value_eq_cons h
  have hne : ∀ d : Char, kindOf d = none → c ≠ d := by
    rintro d hd rfl
    rw [hd] at hkind
    cases hkind
  have hspace := isSpace_eq_false (hne ' ' (by decide)) (hne '\n' (by decide)) (hne '\t' (by decide))
    (hne '\r' (by decide))
  exact ⟨c, cs, hc, hspace, hne ']' (by decide)⟩

/-! ## One step of the reader -/

variable {fuel levels : ℕ} {r : List Char}

theorem isSpace_of_isDigit {c : Char} (h : c.isDigit = true) : isSpace c = false := by
  have hne : ∀ d : Char, d.isDigit = false → c ≠ d := by
    rintro d hd rfl
    rw [hd] at h
    cases h
  exact isSpace_eq_false (hne ' ' rfl) (hne '\n' rfl) (hne '\t' rfl) (hne '\r' rfl)

theorem readValue_digit {c : Char} (hc : c.isDigit = true) (cs : List Char) :
    readValue (fuel + 1) levels (c :: cs) = (do
      let (numeral, rest) ← Numeral.read false (c :: cs)
      .ok (some (.number numeral.toNumber), rest)) := by
  rw [readValue, skip_cons (isSpace_of_isDigit hc)]
  split
  case h_9 =>
    next h =>
    cases h
    rw [hc]
    rfl
  all_goals
    next h =>
    cases h
    try cases hc

theorem readValue_minus (cs : List Char) :
    readValue (fuel + 1) levels ('-' :: cs) = (do
      let (numeral, rest) ← Numeral.read true cs
      .ok (some (.number numeral.toNumber), rest)) := by
  rw [readValue, skip_cons rfl]
  rfl

theorem readValue_number {x : Number} (hx : x.isFinite = true) (hr : Delimits r) :
    readValue (fuel + 1) levels (number x ++ r) = .ok (some (.number x.reread), r) := by
  cases x with
  | nan => cases hx
  | infinite _ => cases hx
  | finite negative step =>
    obtain ⟨numeral, hread, hnumeral⟩ := Numeral.read_number negative step hr
    obtain ⟨c, cs, htext, hdigit⟩ := Decimal.chars_eq_cons Layout.canonical (Magnitude.shortest .toEven step)
    have hnumber : number (.finite negative step) =
        (if negative then ['-'] else []) ++ (Magnitude.shortest .toEven step).chars Layout.canonical := rfl
    rw [hnumber, ← hnumeral]
    cases negative with
    | true =>
      rw [if_pos rfl, List.append_assoc, List.singleton_append, readValue_minus, hread]
      rfl
    | false =>
      rw [if_neg Bool.false_ne_true, List.nil_append]
      rw [htext, List.cons_append] at hread ⊢
      rw [readValue_digit hdigit, hread]
      rfl

theorem readValue_quote (cs : List Char) :
    readValue (fuel + 1) levels ('"' :: cs) = (do
      let (s, rest) ← Quotation.read cs
      .ok (some (.string (String.ofList s)), rest)) := by
  rw [readValue, skip_cons rfl]
  rfl

theorem readValue_string (cs : List Char) :
    readValue (fuel + 1) levels (string cs ++ r) = .ok (some (.string (String.ofList cs)), r) := by
  have htext : string cs ++ r = '"' :: (cs.flatMap escapeChar ++ '"' :: r) := by simp [string]
  rw [htext, readValue_quote, read_flatMap_escapeChar]
  rfl

theorem readValue_bool (b : Bool) :
    readValue (fuel + 1) levels (value (.bool b) ++ r) = .ok (some (.bool b), r) := by
  cases b with
  | true =>
    have htext : value (.bool true) ++ r = 't' :: 'r' :: 'u' :: 'e' :: r := rfl
    rw [htext, readValue, skip_cons rfl]
    rfl
  | false =>
    have htext : value (.bool false) ++ r = 'f' :: 'a' :: 'l' :: 's' :: 'e' :: r := rfl
    rw [htext, readValue, skip_cons rfl]
    rfl

theorem readValue_bracket (cs : List Char) :
    readValue (fuel + 1) (levels + 1) ('[' :: cs) = (
      match skip cs with
      | ']' :: rest => .ok (some (.list []), rest)
      | [] => .error (.before .eofInList [])
      | rest => do
        let (items, rest) ← readItems fuel levels rest
        .ok (items.map .list, rest)) := by
  rw [readValue, skip_cons rfl]
  rfl

theorem readValue_list {c : Char} (hspace : isSpace c = false) (hclose : c ≠ ']') (cs : List Char) :
    readValue (fuel + 1) (levels + 1) ('[' :: c :: cs) = (do
      let (items, rest) ← readItems fuel levels (c :: cs)
      .ok (items.map .list, rest)) := by
  rw [readValue_bracket, skip_cons hspace]
  split
  · next h => exact absurd (List.cons.inj h).1 hclose
  · next h => cases h
  · rfl

theorem readItems_last {cs rest : List Char} {item : Option Value}
    (h : readValue fuel levels cs = .ok (item, ']' :: rest)) :
    readItems (fuel + 1) levels cs = .ok (consItem item (some []), rest) := by
  rw [readItems, h]
  rfl

theorem readItems_comma {cs rest : List Char} {item : Option Value}
    (h : readValue fuel levels cs = .ok (item, ',' :: rest)) :
    readItems (fuel + 1) levels cs = (
      match skip rest with
      | ']' :: rest => .error (.before .trailingComma rest)
      | [] => .error (.before .eofInValue [])
      | rest => do
        let (items, rest) ← readItems fuel levels rest
        .ok (consItem item items, rest)) := by
  rw [readItems, h]
  rfl

theorem readItems_more {cs rest : List Char} {item : Option Value} {c : Char}
    (h : readValue fuel levels cs = .ok (item, ',' :: c :: rest)) (hspace : isSpace c = false) (hclose : c ≠ ']') :
    readItems (fuel + 1) levels cs = (do
      let (items, rest) ← readItems fuel levels (c :: rest)
      .ok (consItem item items, rest)) := by
  rw [readItems_comma h, skip_cons hspace]
  split
  · next h => exact absurd (List.cons.inj h).1 hclose
  · next h => cases h
  · rfl

theorem readValue_map (cs : List Char) :
    readValue (fuel + 1) (levels + 1) ('\x7b' :: '"' :: cs) = (do
      let (pairs, rest) ← readMembers fuel levels cs
      .ok (pairs.map fun pairs => .map (Entries.ofPairs pairs), rest)) := by
  rw [readValue, skip_cons rfl]
  rfl

theorem readMembers_key (key cs : List Char) :
    readMembers (fuel + 1) levels (key.flatMap escapeChar ++ '"' :: ':' :: cs) = (do
      let (value, rest) ← readValue fuel levels cs
      let member := value.map fun v => (String.ofList key, v)
      match skip rest with
      | '\x7d' :: rest => .ok (consItem member (some []), rest)
      | [] => .error (.before .eofInObject [])
      | ',' :: rest =>
        match skip rest with
        | '"' :: rest => do
          let (members, rest) ← readMembers fuel levels rest
          .ok (consItem member members, rest)
        | '\x7d' :: rest => .error (.before .trailingComma rest)
        | [] => .error (.before .eofInValue [])
        | rest => .error (.inside .keyNotString rest)
      | rest => .error (.inside .expectedObjectComma rest)) := by
  rw [readMembers, read_flatMap_escapeChar]
  rfl

theorem readMembers_last {key cs rest : List Char} {v : Option Value}
    (h : readValue fuel levels cs = .ok (v, '\x7d' :: rest)) :
    readMembers (fuel + 1) levels (key.flatMap escapeChar ++ '"' :: ':' :: cs) =
      .ok (consItem (v.map fun v => (String.ofList key, v)) (some []), rest) := by
  rw [readMembers_key, h]
  rfl

theorem readMembers_more {key cs rest : List Char} {v : Option Value}
    (h : readValue fuel levels cs = .ok (v, ',' :: '"' :: rest)) :
    readMembers (fuel + 1) levels (key.flatMap escapeChar ++ '"' :: ':' :: cs) = (do
      let (members, rest) ← readMembers fuel levels rest
      .ok (consItem (v.map fun v => (String.ofList key, v)) members, rest)) := by
  rw [readMembers_key, h]
  rfl

/-! ## Values -/

theorem ofPairs_mapEntries (f : Number → Number) {entries : List (String × Value)} (h : Entries.Ascending entries) :
    Entries.ofPairs (Value.mapEntries f entries) = Value.mapEntries f entries :=
  Entries.ofPairs_eq_self (Value.ascending_mapEntries f h)

theorem exists_fuel {v : Value} (h : v.notFinite? = none) {fuel : ℕ} (hfuel : 2 * (value v).length ≤ fuel) :
    ∃ f, fuel = f + 1 := by
  obtain ⟨c, cs, hc, -⟩ := value_start h
  rw [hc, List.length_cons] at hfuel
  exact ⟨fuel - 1, by omega⟩

open Value Number in
mutual

/-- **The text of a value is read up to its end, and gives the value with its numbers read again.** -/
theorem readValue_value : (v : Value) → v.notFinite? = none → v.isOrdered = true → (fuel levels : ℕ) →
    2 * (value v).length ≤ fuel → v.depth ≤ levels → (r : List Char) → Delimits r →
      readValue fuel levels (value v ++ r) = .ok (some (mapNumbers reread v), r)
  | v, hfinite, hordered, fuel, levels, hfuel, hdepth, r, hr => by
    obtain ⟨fuel, rfl⟩ := exists_fuel hfinite hfuel
    cases v with
    | bool b => exact readValue_bool b
    | number x => exact readValue_number (by simpa [notFinite?] using hfinite) hr
    | string s =>
      rw [value, readValue_string, String.ofList_toList]
      rfl
    | list items =>
      obtain ⟨levels, rfl⟩ : ∃ l, levels = l + 1 := ⟨levels - 1, by rw [depth] at hdepth; omega⟩
      cases items with
      | nil =>
        have htext : value (.list []) ++ r = '[' :: ']' :: r := rfl
        rw [htext, readValue_bracket]
        rfl
      | cons v items =>
        have htext : value (.list (v :: items)) ++ r = '[' :: (elements (v :: items) ++ ']' :: r) := by simp [value]
        have hread := readItems_elements (v :: items) (List.cons_ne_nil v items) hfinite hordered fuel levels
          (by simp [value] at hfuel; omega) (Nat.le_of_succ_le_succ hdepth) r
        obtain ⟨c, cs, hc, hspace, hclose⟩ := value_start (Option.or_eq_none_iff.1 hfinite).1
        rw [elements_cons, hc, List.cons_append, List.cons_append] at hread
        rw [htext, elements_cons, hc, List.cons_append, List.cons_append, readValue_list hspace hclose, hread]
        rfl
    | map entries =>
      obtain ⟨levels, rfl⟩ : ∃ l, levels = l + 1 := ⟨levels - 1, by rw [depth] at hdepth; omega⟩
      obtain ⟨hascending, hvalues⟩ := isOrdered_map_iff.1 hordered
      cases entries with
      | nil =>
        have htext : value (.map []) ++ r = '\x7b' :: '\x7d' :: r := rfl
        rw [htext, readValue, skip_cons rfl]
        rfl
      | cons e entries =>
        obtain ⟨k, v⟩ := e
        have htext : value (.map ((k, v) :: entries)) ++ r = '\x7b' :: '"' :: behindQuote k v entries r := by
          rw [← members_append]
          simp [value]
        have hread := readMembers_members ((k, v) :: entries) hfinite hvalues fuel levels
          (by simp [value] at hfuel; omega) (Nat.le_of_succ_le_succ hdepth) r _ (members_append k v entries r)
        rw [htext, readValue_map, hread, mapNumbers]
        exact congrArg (fun pairs => Except.ok (some (map pairs), r)) (ofPairs_mapEntries reread hascending)

theorem readItems_elements : (items : List Value) → items ≠ [] → itemNotFinite? items = none →
    allOrdered items = true → (fuel levels : ℕ) → 2 * (elements items).length + 1 ≤ fuel → itemDepth items ≤ levels →
      (r : List Char) → readItems fuel levels (elements items ++ ']' :: r) = .ok (some (mapItems reread items), r)
  | [], hne, _, _, _, _, _, _, _ => absurd rfl hne
  | v :: items, _, hfinite, hordered, fuel, levels, hfuel, hdepth, r => by
    obtain ⟨fuel, rfl⟩ : ∃ f, fuel = f + 1 := ⟨fuel - 1, by omega⟩
    obtain ⟨hv, hitems⟩ := Option.or_eq_none_iff.1 hfinite
    obtain ⟨hvOrdered, hitemsOrdered⟩ := Bool.and_eq_true_iff.1 hordered
    obtain ⟨hvDepth, hitemsDepth⟩ := max_le_iff.1 hdepth
    rw [elements_cons, List.length_append] at hfuel
    have hread := readValue_value v hv hvOrdered fuel levels (by omega) hvDepth (andMore elements items ++ ']' :: r)
      (delimits_andMore (.inl rfl) items r)
    rw [elements_cons, List.append_assoc]
    cases items with
    | nil => exact readItems_last hread
    | cons w items =>
      have hmore := readItems_elements (w :: items) (List.cons_ne_nil w items) hitems hitemsOrdered fuel levels
        (by rw [andMore, List.length_cons] at hfuel; omega) hitemsDepth r
      obtain ⟨c, cs, hc, hspace, hclose⟩ := value_start (Option.or_eq_none_iff.1 hitems).1
      rw [elements_cons, hc, List.cons_append, List.cons_append] at hmore
      rw [andMore, elements_cons, hc, List.cons_append, List.cons_append, List.cons_append] at hread ⊢
      rw [readItems_more hread hspace hclose, hmore]
      rfl

theorem readMembers_members : (entries : List (String × Value)) → entryNotFinite? entries = none →
    allEntriesOrdered entries = true → (fuel levels : ℕ) → 2 * (members entries).length ≤ fuel →
      entryDepth entries ≤ levels → (r cs : List Char) → members entries ++ '\x7d' :: r = '"' :: cs →
        readMembers fuel levels cs = .ok (some (mapEntries reread entries), r)
  | [], _, _, _, _, _, _, _, _, h => by cases h
  | (k, v) :: entries, hfinite, hordered, fuel, levels, hfuel, hdepth, r, cs, h => by
    obtain ⟨hv, hentries⟩ := Option.or_eq_none_iff.1 hfinite
    obtain ⟨hvOrdered, hentriesOrdered⟩ := Bool.and_eq_true_iff.1 hordered
    obtain ⟨hvDepth, hentriesDepth⟩ := max_le_iff.1 hdepth
    obtain rfl := (List.cons.inj (h.symm.trans (members_append k v entries r))).2
    rw [length_members] at hfuel
    obtain ⟨fuel, rfl⟩ : ∃ f, fuel = f + 1 := ⟨fuel - 1, by omega⟩
    have hread := readValue_value v hv hvOrdered fuel levels (by omega) hvDepth (andMore members entries ++ '\x7d' :: r)
      (delimits_andMore (.inr rfl) entries r)
    rw [behindQuote]
    cases entries with
    | nil =>
      rw [readMembers_last hread, String.ofList_toList]
      rfl
    | cons e entries =>
      obtain ⟨l, w⟩ := e
      have hmore := readMembers_members ((l, w) :: entries) hentries hentriesOrdered fuel levels
        (by rw [andMore, List.length_cons] at hfuel; omega) hentriesDepth r _ (members_append l w entries r)
      rw [andMore_members_append] at hread ⊢
      rw [readMembers_more hread, hmore, String.ofList_toList]
      rfl

end

/-! ## Documents -/

end Json

namespace Slots

/-- slots that are set in order are the slots of a collection -/
theorem entries_foldl_insert (pairs : List (String × Value)) (h : Value.allEntriesOrdered pairs = true) (slots : Slots) :
    (pairs.foldl (fun slots (name, value) => slots.insert name value) slots).entries =
      pairs.foldl (fun entries (key, value) => Entries.insert key value entries) slots.entries := by
  induction pairs generalizing slots with
  | nil => rfl
  | cons e pairs ih =>
    obtain ⟨hv, hpairs⟩ := Bool.and_eq_true_iff.1 h
    have hentries : (slots.insert e.1 e.2).entries = slots.entries.insert e.1 e.2.sorted := rfl
    rw [List.foldl_cons, List.foldl_cons, ih hpairs, hentries, Value.sorted_eq_self e.2 hv]

theorem ofPairs_mapEntries (f : Number → Number) (slots : Slots) :
    ofPairs (Value.mapEntries f slots.entries) = slots.mapNumbers f := by
  obtain ⟨hascending, hordered⟩ := Value.isOrdered_map_iff.1 slots.ordered
  have hset := entries_foldl_insert _ (Value.allEntriesOrdered_mapEntries f slots.entries hordered) empty
  exact ext_toValue (congrArg Value.map (hset.trans (Json.ofPairs_mapEntries f hascending)))

/-- slots are kept exactly if all their numbers are -/
theorem mapNumbers_eq_self_iff {f : Number → Number} {slots : Slots} :
    slots.mapNumbers f = slots ↔ slots.toValue.NumbersAre fun x => f x = x := by
  have hvalue : (slots.mapNumbers f).toValue = Value.mapNumbers f slots.toValue := rfl
  rw [← Value.mapNumbers_eq_self_iff, ← hvalue]
  exact ⟨congrArg toValue, ext_toValue⟩

end Slots

end BlockTemplates
