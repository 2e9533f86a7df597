/-
A library as two parts that are kept side by side.

A `Catalogue` has an index, which says where a name leads, and the names in the order they came. Nothing in its type
makes the two fit: an addition updates one after the other, a merge looks up in the index what the order lists and stops
at a name that the index lacks, and `templates` passes over such names. `Library.catalogue` reads both parts off a
library, and every operation on libraries is the one on catalogues then (`catalogue_change`). So the parts never come
apart, whatever is done to a library and whether it fails or not: `change_history`.
-/
import BlockTemplates.Proofs.Engine.Run
import BlockTemplates.Proofs.Library.Effect
import BlockTemplates.Proofs.Markup.Scan
import Mathlib.Logic.Function.Basic

namespace BlockTemplates

/-- templates under their names, and the names in the order they were first added -/
structure Catalogue where
  index : String → Option Template
  order : List String

namespace Catalogue

def empty : Catalogue :=
  ⟨fun _ => none, []⟩

/-- the templates in order; names that lead nowhere are passed over -/
def templates (cat : Catalogue) : List Template :=
  cat.order.filterMap cat.index

/-- adds a template; a name that leads somewhere is up to the policy -/
def add (cat : Catalogue) (t : Template) (policy : Policy) : Except Error Catalogue :=
  match cat.index t.name with
  | none => .ok ⟨Function.update cat.index t.name (some t), cat.order ++ [t.name]⟩
  | some _ =>
    match policy with
    | .error => .error (.duplicateTemplate t.name none)
    | .overwrite => .ok ⟨Function.update cat.index t.name (some t), cat.order⟩
    | .ignore => .ok cat

def addAll (policy : Policy) : List Template → Catalogue → Catalogue × Except Error Unit
  | [], cat => (cat, .ok ())
  | t :: rest, cat =>
    match cat.add t policy with
    | .ok cat => addAll policy rest cat
    | .error e => (cat, .error e)

/-- adds what names lead to in another catalogue, up to the first that leads nowhere or fails -/
def mergeNames (policy : Policy) (other : Catalogue) : List String → Catalogue → Catalogue × Except Error Unit
  | [], cat => (cat, .ok ())
  | name :: rest, cat =>
    match other.index name with
    | none => (cat, .error (.missingTemplate name))
    | some t =>
      match cat.add t policy with
      | .ok cat => mergeNames policy other rest cat
      | .error e => (cat, .error e)

def merge (cat other : Catalogue) (policy : Policy) : Catalogue × Except Error Unit :=
  mergeNames policy other other.order cat

end Catalogue

def Library.catalogue (lib : Library) : Catalogue :=
  ⟨lib.find?, lib.names⟩

/-- the catalogue an operation leaves, whether it fails or not; a parse adds the blocks of the text -/
def Operation.changeCatalogue (cat : Catalogue) : Operation → Catalogue
  | parse input policy => (cat.addAll policy ((Markup.layout 1 input.toList).blocks.map Markup.Block.template)).1
  | add t policy => (cat.add t policy).toOption.getD cat
  | merge other policy => (cat.merge other.catalogue policy).1
  | _ => cat

namespace Library

variable {policy : Policy} {lib lib' : Library} {t : Template}

/-! ## The parts of a library -/

theorem catalogue_empty : empty.catalogue = Catalogue.empty := rfl

/-- the index has what the order lists, and the templates are all found by way of both -/
theorem templates_catalogue (lib : Library) : lib.catalogue.templates = lib.templates := by
  have hfind : ∀ t ∈ lib.templates, lib.find? t.name = some t := fun t ht => find?_eq_some_iff.2 ⟨ht, rfl⟩
  calc lib.catalogue.templates = (lib.templates.map Template.name).filterMap lib.find? := rfl
    _ = lib.templates.filterMap (lib.find? ∘ Template.name) := List.filterMap_map
    _ = lib.templates.filterMap some := List.filterMap_congr hfind
    _ = lib.templates := List.filterMap_some

/-! ## Operations on the parts -/

/-- an addition updates the index and the order as `Catalogue.add` does -/
theorem catalogue_add (lib : Library) (t : Template) (policy : Policy) :
    (lib.add t policy).map catalogue = lib.catalogue.add t policy := by
  have hindex : ∀ {lib' : Library}, lib.add t policy = .ok lib' →
      ¬ (policy = .ignore ∧ t.name ∈ lib.names) → lib'.find? = Function.update lib.find? t.name (some t) := by
    intro lib' hadd hkept
    funext name
    rw [find?_add hadd]
    by_cases hname : name = t.name
    · rw [hname, Function.update_self, if_pos ⟨rfl, hkept⟩]
    · rw [Function.update_of_ne hname, if_neg fun hand => hname hand.1.symm]
  by_cases hmem : t.name ∈ lib.names
  · obtain ⟨old, hold⟩ := Option.ne_none_iff_exists'.1 fun hnone => find?_eq_none_iff.1 hnone hmem
    cases policy with
    | error =>
      rw [add_refused ⟨rfl, hmem⟩]
      simp only [Catalogue.add, catalogue, hold]
      rfl
    | overwrite =>
      have hadd := add_taken hmem
      have hnames := names_add hadd
      rw [if_pos hmem] at hnames
      rw [hadd]
      simp only [Catalogue.add, catalogue, hold, Except.map, hnames, hindex hadd nofun]
    | ignore =>
      rw [add_ignored hmem]
      simp only [Catalogue.add, catalogue, hold]
      rfl
  · have hnone : lib.find? t.name = none := find?_eq_none_iff.2 hmem
    have hadd := add_fresh hmem policy
    have hnames := names_add hadd
    rw [if_neg hmem] at hnames
    rw [hadd]
    simp only [Catalogue.add, catalogue, hnone, Except.map, hnames, hindex hadd fun hand => hmem hand.2]

theorem catalogue_add_ok (h : lib.add t policy = .ok lib') : lib.catalogue.add t policy = .ok lib'.catalogue := by
  rw [← catalogue_add, h]
  rfl

theorem catalogue_add_error {e : Error} (h : lib.add t policy = .error e) :
    lib.catalogue.add t policy = .error e := by
  rw [← catalogue_add, h]
  rfl

theorem catalogue_addAll (policy : Policy) (templates : List Template) (lib : Library) :
    lib.catalogue.addAll policy templates =
      ((addAll policy templates lib).1.catalogue, (addAll policy templates lib).2) := by
  induction templates generalizing lib with
  | nil => rfl
  | cons t rest ih =>
    rw [Catalogue.addAll, addAll]
    rcases hadd : lib.add t policy with e | lib'
    · rw [catalogue_add_error hadd]
    · rw [catalogue_add_ok hadd]
      exact ih lib'

/-- a merge finds everything that the merged library lists -/
theorem catalogue_merge (lib other : Library) (policy : Policy) :
    lib.catalogue.merge other.catalogue policy = ((lib.merge other policy).1.catalogue, (lib.merge other policy).2) := by
  have key : ∀ (templates : List Template) (lib : Library), (∀ t ∈ templates, other.find? t.name = some t) →
      Catalogue.mergeNames policy other.catalogue (templates.map Template.name) lib.catalogue =
        ((addAll policy templates lib).1.catalogue, (addAll policy templates lib).2) := by
    intro templates
    induction templates with
    | nil => exact fun lib _ => rfl
    | cons t rest ih =>
      intro lib hfound
      have ht : other.catalogue.index t.name = some t := hfound t List.mem_cons_self
      rw [List.map_cons, Catalogue.mergeNames, ht, addAll]
      rcases hadd : lib.add t policy with e | lib'
      · simp only [catalogue_add_error hadd]
      · simp only [catalogue_add_ok hadd]
        exact ih lib' fun s hs => hfound s (List.mem_cons_of_mem t hs)
  exact key other.templates lib fun t ht => find?_eq_some_iff.2 ⟨ht, rfl⟩

/-- an operation does to the parts of a library what it does to the library -/
theorem catalogue_change (lib : Library) (op : Operation) :
    (op.change lib).catalogue = op.changeCatalogue lib.catalogue := by
  cases op with
  | parse input policy =>
    rw [Operation.change, Operation.changeCatalogue, catalogue_addAll, fst_parse]
  | add t policy =>
    rw [Operation.change, Operation.changeCatalogue]
    rcases hadd : lib.add t policy with e | lib'
    · rw [catalogue_add_error hadd]
      rfl
    · rw [catalogue_add_ok hadd]
      rfl
  | merge other policy => rw [Operation.change, Operation.changeCatalogue, catalogue_merge]
  | _ => rfl

theorem catalogue_foldl_change (ops : List Operation) (lib : Library) :
    (ops.foldl Operation.change lib).catalogue = ops.foldl Operation.changeCatalogue lib.catalogue := by
  induction ops generalizing lib with
  | nil => rfl
  | cons op ops ih => rw [List.foldl_cons, List.foldl_cons, ih, catalogue_change]

/-! ## Names and what they lead to -/

theorem get_eq_ok_iff {name : String} : lib.get name = .ok t ↔ lib.find? name = some t := by
  rw [get]
  rcases lib.find? name with _ | found <;> simp

theorem exists_get_iff {name : String} : (∃ t, lib.get name = .ok t) ↔ name ∈ lib.names := by
  simp only [get_eq_ok_iff, ← Option.isSome_iff_exists]
  exact find?_isSome_iff

/-- a name stays, and keeps its template unless templates are overwritten -/
theorem get_change {op : Operation} {name : String} (h : lib.get name = .ok t) :
    ∃ t', (op.change lib).get name = .ok t' ∧ (op.overwrites = false → t' = t) := by
  have hlisted : name ∈ (op.change lib).names :=
    (op.names_prefix_change lib).subset (exists_get_iff.1 ⟨t, h⟩)
  obtain ⟨t', ht'⟩ := exists_get_iff.2 hlisted
  refine ⟨t', ht', fun hkeeps => ?_⟩
  have hkept := (Operation.subset_change hkeeps lib).find? (get_eq_ok_iff.1 h)
  rw [get_eq_ok_iff.1 ht'] at hkept
  exact Option.some.inj hkept

/-- **What every library keeps.** Whatever operations have made a library from nothing, whether they failed or not:
- its index and its order are the ones that the same operations make when they update the two one by one, and all its
  templates are found by way of both;
- no name is listed twice, and exactly the listed names are contained and lead to a template;
- there is one template for each listed name, in this order, with this name, which is valid, and with the segments of its
  body, and as many as the size says;
- one more operation leaves the list as the front of the new one, and changes the body of a listed name only if it
  overwrites. -/
theorem change_history (ops : List Operation) :
    let lib := ops.foldl Operation.change empty
    let cat := ops.foldl Operation.changeCatalogue Catalogue.empty
    (cat.order = lib.names ∧ cat.index = lib.find? ∧ cat.templates = lib.templates) ∧
    lib.names.Nodup ∧
    (∀ name, (lib.contains name = true ↔ name ∈ lib.names) ∧ ((∃ t, lib.get name = .ok t) ↔ name ∈ lib.names)) ∧
    (lib.templates.map Template.name = lib.names ∧
      ∀ t ∈ lib.templates, isTemplateName t.name = true ∧ t.segments = tokenize t.body ∧ lib.get t.name = .ok t) ∧
    (lib.size = lib.names.length ∧ (lib.templates.isEmpty = true ↔ lib.names = [])) ∧
    ∀ op : Operation, lib.names <+: (op.change lib).names ∧
      ∀ name t, lib.get name = .ok t →
        ∃ t', (op.change lib).get name = .ok t' ∧ (t'.body ≠ t.body → op.overwrites = true) := by
  intro lib cat
  have hcat : cat = lib.catalogue := by
    have hparts := catalogue_foldl_change ops empty
    rw [catalogue_empty] at hparts
    exact hparts.symm
  refine ⟨?_, lib.nodup, ?_, ⟨rfl, ?_⟩, ⟨?_, ?_⟩, ?_⟩
  · rw [hcat]
    exact ⟨rfl, rfl, templates_catalogue lib⟩
  · exact fun name => ⟨contains_iff, exists_get_iff⟩
  · exact fun t ht => ⟨t.validName, rfl, get_eq_ok_iff.2 (find?_eq_some_iff.2 ⟨ht, rfl⟩)⟩
  · rw [size, names, List.length_map]
  · rw [List.isEmpty_iff, names, List.map_eq_nil_iff]
  · refine fun op => ⟨op.names_prefix_change lib, fun name t ht => ?_⟩
    obtain ⟨t', ht', hkept⟩ := get_change ht
    refine ⟨t', ht', fun hbody => ?_⟩
    by_contra hoverwrites
    exact hbody (congrArg Template.body (hkept (Bool.eq_false_iff.2 hoverwrites)))

end Library

end BlockTemplates
