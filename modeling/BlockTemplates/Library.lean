/-
Libraries: templates in the order their names were first added, each name once.

What happens to a name that is there already is a `Policy`: the addition fails, replaces the template in its place, or
is dropped. An operation on a library gives the library it leaves, and the error if it failed; what was done before a
failure stays done.
-/
import BlockTemplates.Template.Basic

namespace BlockTemplates

/-- what to do with a template whose name is taken -/
inductive Policy where
  | error
  | overwrite
  | ignore
  deriving DecidableEq, Repr

/-- the policy of a name, in configurations and on the command line -/
def Policy.ofName? (name : String) : Option Policy :=
  match name with
  | "error" => some .error
  | "overwrite" => some .overwrite
  | "ignore" => some .ignore
  | _ => none

/-- templates with different names, in the order the names were first added -/
structure Library where
  templates : List Template
  nodup : (templates.map Template.name).Nodup

namespace Library

def empty : Library :=
  ⟨[], .nil⟩

/-- the names in the order they were first added -/
def names (lib : Library) : List String :=
  lib.templates.map Template.name

def size (lib : Library) : Nat :=
  lib.templates.length

def find? (lib : Library) (name : String) : Option Template :=
  lib.templates.find? fun t => t.name = name

def contains (lib : Library) (name : String) : Bool :=
  (lib.find? name).isSome

def get (lib : Library) (name : String) : Except Error Template :=
  match lib.find? name with
  | some t => .ok t
  | none => .error (.missingTemplate name)

theorem find?_eq_none_iff {lib : Library} {name : String} : lib.find? name = none ↔ name ∉ lib.names := by
  simp [find?, names]

theorem name_of_find? {lib : Library} {name : String} {t : Template} (h : lib.find? name = some t) :
    t.name = name := by
  simpa using List.find?_some h

theorem mem_names_of_find? {lib : Library} {name : String} {t : Template} (h : lib.find? name = some t) :
    name ∈ lib.names :=
  List.mem_map.2 ⟨t, List.mem_of_find?_eq_some h, name_of_find? h⟩

/-- puts `t` in the place of the template of its name -/
def replaceIn (t : Template) (templates : List Template) : List Template :=
  templates.map fun old => if old.name = t.name then t else old

theorem map_name_replaceIn (t : Template) (templates : List Template) :
    (replaceIn t templates).map Template.name = templates.map Template.name := by
  simp only [replaceIn, List.map_map]
  refine List.map_congr_left fun old _ => ?_
  simp only [Function.comp]
  split <;> simp_all

def append (lib : Library) (t : Template) (fresh : t.name ∉ lib.names) : Library where
  templates := lib.templates ++ [t]
  nodup := by
    rw [List.map_append, List.nodup_append]
    refine ⟨lib.nodup, by simp, fun a ha b hb e => ?_⟩
    simp only [List.map_cons, List.map_nil, List.mem_singleton] at hb
    exact fresh (hb ▸ e ▸ ha)

def replace (lib : Library) (t : Template) : Library where
  templates := replaceIn t lib.templates
  nodup := by rw [map_name_replaceIn]; exact lib.nodup

/-- adds a template; a taken name is up to the policy -/
def add (lib : Library) (t : Template) (policy : Policy) : Except Error Library :=
  if h : t.name ∈ lib.names then
    match policy with
    | .error => .error (.duplicateTemplate t.name none)
    | .overwrite => .ok (lib.replace t)
    | .ignore => .ok lib
  else .ok (lib.append t h)

/-- adds templates one after another, up to the first that fails -/
def addAll (policy : Policy) : List Template → Library → Library × Except Error Unit
  | [], lib => (lib, .ok ())
  | t :: rest, lib =>
    match lib.add t policy with
    | .ok lib => addAll policy rest lib
    | .error e => (lib, .error e)

/-- adds the templates of another library in its order -/
def merge (lib other : Library) (policy : Policy) : Library × Except Error Unit :=
  addAll policy other.templates lib

end Library

end BlockTemplates
