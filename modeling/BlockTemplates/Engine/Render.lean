/-
Rendering with a cache.

A render looks up the template, refuses a name that is being rendered already, and asks the cache for the fingerprint of
the name and the slots. Only on a miss the template is rendered, with the name on the chain of those being rendered, and
the output is stored when it is complete.

The chain holds names of the library, none twice, so with every nested render fewer templates are left that are not on
it: `Library.idle` is the measure of the recursion, and `Library.idle_append_lt` its descent.
-/
import BlockTemplates.Engine.Cache
import BlockTemplates.Library

namespace BlockTemplates

/-- how many templates of a library are not on a chain -/
def Library.idle (lib : Library) (chain : List String) : Nat :=
  lib.names.countP fun name => name ∉ chain

theorem Library.idle_append_lt {lib : Library} {chain : List String} {name : String} (hmem : name ∈ lib.names)
    (hidle : name ∉ chain) : lib.idle (chain ++ [name]) < lib.idle chain := by
  have key : ∀ names : List String, name ∈ names →
      (names.countP fun n => n ∉ chain ++ [name]) < names.countP fun n => n ∉ chain := by
    intro names h
    induction names with
    | nil => simp at h
    | cons n rest ih =>
      have weak : (rest.countP fun n => n ∉ chain ++ [name]) ≤ rest.countP fun n => n ∉ chain :=
        List.countP_mono_left fun x _ hx => by simp_all
      simp only [List.countP_cons]
      by_cases e : n = name
      · subst e
        have hnew : decide (n ∉ chain ++ [n]) = false := by simp
        have hold : decide (n ∉ chain) = true := by simpa using hidle
        simp only [hnew, hold]
        simp only [Bool.false_eq_true, ↓reduceIte]
        omega
      · have := ih (by simpa [Ne.symm e] using h)
        have hsame : decide (n ∉ chain ++ [name]) = decide (n ∉ chain) := by simp [e]
        rw [hsame]
        omega
  exact key _ hmem

/-- a computation on a cache, which also a failure leaves behind -/
abbrev Rendering (α : Type) := ExceptT Error (StateM Cache) α

namespace Rendering

/-- the outcome and the cache afterwards -/
def on {α : Type} (r : Rendering α) (cache : Cache) : Except Error α × Cache :=
  StateT.run (ExceptT.run r) cache

/-- the output of a fingerprint: from the cache, or from `render` and then stored -/
def cached (key : Fingerprint) (render : Rendering String) : Rendering String := do
  match (← get).find? key with
  | some output =>
    modify Cache.hit
    pure output
  | none =>
    modify Cache.miss
    let output ← render
    modifyGet fun cache => cache.store key output

end Rendering

/-- renders the template `name` while the names of `chain` are being rendered -/
def Library.renderWithin (lib : Library) (chain : List String) (name : String) (slots : Slots) : Rendering String :=
  match _found : lib.find? name with
  | none => throw (.missingTemplate name)
  | some t =>
    if _active : name ∈ chain then throw (.renderCycle name (chain ++ [name]))
    else
      match Fingerprint.of name slots with
      | .error e => throw e
      | .ok key => Rendering.cached key (t.render (fun n s => renderWithin lib (chain ++ [name]) n s) slots)
termination_by lib.idle chain
decreasing_by exact Library.idle_append_lt (Library.mem_names_of_find? _found) _active

end BlockTemplates
