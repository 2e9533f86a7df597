/-
Renders step by step, with the templates that are being rendered on a stack.

A `Moment` is all there is between two steps of a render: the stack, the chain of names, which is one list that every
nested render puts its name on and takes it off again, and the cache. `Library.Step` says what can happen next. Nothing
in it bounds a render: that every render ends is a fact about its steps.

- `Step.unique`: at every moment at most one thing can happen.
- `steps_renderWithin`: the steps of a render come to an end, with the outcome and the cache of `Library.renderWithin`,
  on the stack and the chain that were there before.
- `acc_start`: no render takes infinitely many steps.
-/
import BlockTemplates.Proofs.Engine.Rendering
import Mathlib.Logic.Relation

namespace BlockTemplates

/-! ## Moments and steps -/

/-- a template that is being rendered -/
structure Frame where
  name : String
  slots : Slots
  /-- the fingerprint of the name and the slots -/
  key : Fingerprint
  /-- the segments that are still to be written -/
  rest : List Segment
  /-- what has been written -/
  output : String

/-- what a render is about to do -/
inductive Control where
  /-- `name` is to be rendered with `slots` -/
  | call (name : String) (slots : Slots)
  /-- the innermost template is written on -/
  | write
  /-- the render of `name` with `slots` is over -/
  | back (name : String) (slots : Slots) (result : Except Error String)

/-- a moment of a render -/
structure Moment where
  /-- the templates that are being rendered, innermost first -/
  frames : List Frame
  /-- the names that may not be rendered now, outermost first -/
  chain : List String
  cache : Cache
  control : Control

namespace Moment

/-- a render begins, with nothing else being rendered but what is on the chain -/
def start (chain : List String) (name : String) (slots : Slots) (cache : Cache) : Moment :=
  ⟨[], chain, cache, .call name slots⟩

end Moment

namespace Library

/-- what can happen next in a render -/
inductive Step (lib : Library) : Moment → Moment → Prop where
  /-- the name is not in the library -/
  | missing {frames chain cache name slots} (hfind : lib.find? name = none) :
    Step lib ⟨frames, chain, cache, .call name slots⟩
      ⟨frames, chain, cache, .back name slots (.error (.missingTemplate name))⟩
  /-- the name is on the chain -/
  | active {frames chain cache name slots t} (hfind : lib.find? name = some t) (hmem : name ∈ chain) :
    Step lib ⟨frames, chain, cache, .call name slots⟩
      ⟨frames, chain, cache, .back name slots (.error (.renderCycle name (chain ++ [name])))⟩
  /-- the slots have no fingerprint -/
  | invalid {frames chain cache name slots t e} (hfind : lib.find? name = some t) (hmem : name ∉ chain)
    (hkey : Fingerprint.of name slots = .error e) :
    Step lib ⟨frames, chain, cache, .call name slots⟩ ⟨frames, chain, cache, .back name slots (.error e)⟩
  /-- the output is in the cache -/
  | hit {frames chain cache name slots t key output} (hfind : lib.find? name = some t) (hmem : name ∉ chain)
    (hkey : Fingerprint.of name slots = .ok key) (hstored : cache.find? key = some output) :
    Step lib ⟨frames, chain, cache, .call name slots⟩ ⟨frames, chain, cache.hit, .back name slots (.ok output)⟩
  /-- the output is not in the cache: the template goes on the stack, and its name on the chain -/
  | miss {frames chain cache name slots t key} (hfind : lib.find? name = some t) (hmem : name ∉ chain)
    (hkey : Fingerprint.of name slots = .ok key) (hstored : cache.find? key = none) :
    Step lib ⟨frames, chain, cache, .call name slots⟩
      ⟨⟨name, slots, key, t.segments, ""⟩ :: frames, chain ++ [name], cache.miss, .write⟩
  | text {frames chain cache name slots key cs rest output} :
    Step lib ⟨⟨name, slots, key, .text cs :: rest, output⟩ :: frames, chain, cache, .write⟩
      ⟨⟨name, slots, key, rest, output ++ cs⟩ :: frames, chain, cache, .write⟩
  | slot {frames chain cache name slots key path rest output} :
    Step lib ⟨⟨name, slots, key, .slot path :: rest, output⟩ :: frames, chain, cache, .write⟩
      ⟨⟨name, slots, key, rest, output ++ displayed (slots.resolve path)⟩ :: frames, chain, cache, .write⟩
  /-- another template is invoked -/
  | invoke {frames chain cache name slots key n scope rest output} :
    Step lib ⟨⟨name, slots, key, .invoke n scope :: rest, output⟩ :: frames, chain, cache, .write⟩
      ⟨⟨name, slots, key, rest, output⟩ :: frames, chain, cache, .call n (slots.within scope)⟩
  /-- the output of an invoked template is written -/
  | resume {frames chain cache name slots key rest output n s inner} :
    Step lib ⟨⟨name, slots, key, rest, output⟩ :: frames, chain, cache, .back n s (.ok inner)⟩
      ⟨⟨name, slots, key, rest, output ++ inner⟩ :: frames, chain, cache, .write⟩
  /-- an invoked template has failed: the template goes from the stack, and its name from the chain -/
  | fail {frames chain cache name slots key rest output n s e} :
    Step lib ⟨⟨name, slots, key, rest, output⟩ :: frames, chain, cache, .back n s (.error e)⟩
      ⟨frames, chain.dropLast, cache, .back name slots (.error e)⟩
  /-- the template is complete: it goes from the stack, its name from the chain, and its output into the cache -/
  | finish {frames chain cache name slots key output} :
    Step lib ⟨⟨name, slots, key, [], output⟩ :: frames, chain, cache, .write⟩
      ⟨frames, chain.dropLast, (cache.store key output).2, .back name slots (.ok (cache.store key output).1)⟩

def Steps (lib : Library) : Moment → Moment → Prop :=
  Relation.ReflTransGen lib.Step

variable {lib : Library}

/-- at every moment at most one thing can happen -/
theorem Step.unique {m a b : Moment} (ha : lib.Step m a) (hb : lib.Step m b) : a = b := by
  cases ha <;> cases hb <;> simp_all

/-- a render that is over stays as it is -/
theorem not_step_back {chain : List String} {cache : Cache} {name : String} {slots : Slots}
    {result : Except Error String} (m : Moment) : ¬ lib.Step ⟨[], chain, cache, .back name slots result⟩ m := by
  intro h
  cases h

/-! ## The steps of a render -/

/-- where the segments of a template have been written, or one of them has failed -/
def written (frame : Frame) (frames : List Frame) (chain : List String) (cache : Cache) :
    Except Error String → Moment
  | .ok text => ⟨{ frame with rest := [], output := frame.output ++ text } :: frames, chain, cache, .write⟩
  | .error e => ⟨frames, chain.dropLast, cache, .back frame.name frame.slots (.error e)⟩

/-- whether a text has been written before or is written now is the same in the end -/
theorem written_append (name : String) (slots : Slots) (key : Fingerprint) (segment : Segment) (rest : List Segment)
    (output first : String) (frames : List Frame) (chain : List String) (cache : Cache)
    (result : Except Error String) :
    written ⟨name, slots, key, rest, output ++ first⟩ frames chain cache result =
      written ⟨name, slots, key, segment :: rest, output⟩ frames chain cache (result.map (first ++ ·)) := by
  cases result with
  | error e => rfl
  | ok text => simp only [written, Except.map, String.append_assoc]

/-- renders below the chain take steps to their outcomes -/
def StepsBelow (lib : Library) (chain : List String) : Prop :=
  ∀ name slots frames cache,
    lib.Steps ⟨frames, chain, cache, .call name slots⟩
      ⟨frames, chain, ((lib.renderWithin chain name slots).on cache).2,
        .back name slots ((lib.renderWithin chain name slots).on cache).1⟩

/-- if renders below the chain do, so does the template that is being rendered -/
theorem steps_renderSegments {chain : List String} (hbelow : lib.StepsBelow chain) (frame : Frame)
    (frames : List Frame) (cache : Cache) :
    lib.Steps ⟨frame :: frames, chain, cache, .write⟩
      (written frame frames chain
        ((renderSegments (lib.renderWithin chain) frame.slots frame.rest : Rendering String).on cache).2
        ((renderSegments (lib.renderWithin chain) frame.slots frame.rest : Rendering String).on cache).1) := by
  obtain ⟨name, slots, key, rest, output⟩ := frame
  induction rest generalizing output cache with
  | nil =>
    rw [Rendering.on_renderSegments_nil, written, String.append_empty]
    exact .refl
  | cons segment rest ih =>
    -- once the first segment is written, the induction hypothesis takes the steps of the others
    have hwritten : ∀ {first : String} {cache' : Cache},
        (segment.render (lib.renderWithin chain) slots : Rendering String).on cache = (.ok first, cache') →
          lib.Steps ⟨⟨name, slots, key, rest, output ++ first⟩ :: frames, chain, cache', .write⟩
            (written ⟨name, slots, key, segment :: rest, output⟩ frames chain
              ((renderSegments (lib.renderWithin chain) slots (segment :: rest) : Rendering String).on cache).2
              ((renderSegments (lib.renderWithin chain) slots (segment :: rest) : Rendering String).on cache).1) := by
      intro first cache' hfirst
      rw [Rendering.on_renderSegments_cons_ok hfirst, ← written_append]
      exact ih cache' (output ++ first)
    cases segment with
    | text cs => exact .head .text (hwritten rfl)
    | slot path => exact .head .slot (hwritten rfl)
    | invoke n scope =>
      have hcall := hbelow n (slots.within scope) (⟨name, slots, key, rest, output⟩ :: frames) cache
      refine .head .invoke (hcall.trans ?_)
      rcases hon : (lib.renderWithin chain n (slots.within scope)).on cache with ⟨e | inner, cache'⟩
      · have herror : ((Segment.invoke n scope).render (lib.renderWithin chain) slots : Rendering String).on cache =
            (.error e, cache') := hon
        rw [Rendering.on_renderSegments_cons_error herror]
        exact .single .fail
      · exact .head .resume (hwritten hon)

/-- a render takes steps to its outcome, and leaves the stack and the chain as they were -/
theorem steps_renderWithin (lib : Library) (chain : List String) : lib.StepsBelow chain := by
  intro name slots
  induction chain, name, slots using Library.renderWithin.induct lib with
  | case1 chain name slots hfind =>
    intro frames cache
    rw [renderWithin_missing hfind]
    exact .single (.missing hfind)
  | case2 chain name slots t hfind hmem =>
    intro frames cache
    rw [renderWithin_active hfind hmem]
    exact .single (.active hfind hmem)
  | case3 chain name slots t hfind hmem e hkey =>
    intro frames cache
    rw [renderWithin_invalid hfind hmem hkey]
    exact .single (.invalid hfind hmem hkey)
  | case4 chain name slots t hfind hmem key hkey ih =>
    intro frames cache
    rw [renderWithin_cached hfind hmem hkey]
    rcases hstored : cache.find? key with _ | output
    · -- the body is rendered on the chain with the name; the last step takes the name off again
      have hbody := steps_renderSegments ih ⟨name, slots, key, t.segments, ""⟩ frames cache.miss
      refine .head (.miss hfind hmem hkey hstored) ?_
      rcases hon : (t.render (lib.renderWithin (chain ++ [name])) slots : Rendering String).on cache.miss with
        ⟨e | text, cache'⟩
      · have hfailed : (renderSegments (lib.renderWithin (chain ++ [name])) slots t.segments : Rendering String).on
            cache.miss = (.error e, cache') := hon
        rw [hfailed, written, List.dropLast_concat] at hbody
        rw [Rendering.on_cached_miss_error hstored hon]
        exact hbody
      · have hcomplete : (renderSegments (lib.renderWithin (chain ++ [name])) slots t.segments : Rendering String).on
            cache.miss = (.ok text, cache') := hon
        rw [hcomplete, written, String.empty_append] at hbody
        have hfinish : lib.Step ⟨⟨name, slots, key, [], text⟩ :: frames, chain ++ [name], cache', .write⟩ _ := .finish
        rw [List.dropLast_concat] at hfinish
        rw [Rendering.on_cached_miss_ok hstored hon]
        exact hbody.tail hfinish
    · rw [Rendering.on_cached_hit hstored]
      exact .single (.hit hfind hmem hkey hstored)

/-! ## The end of a render -/

/-- from a moment that comes to an end, only finitely many steps can be taken -/
theorem acc_of_steps {m last : Moment} (h : lib.Steps m last) (hlast : ∀ m', ¬ lib.Step last m') :
    Acc (fun m' m => lib.Step m m') m := by
  induction h using Relation.ReflTransGen.head_induction_on with
  | refl => exact .intro _ fun m' hstep => absurd hstep (hlast m')
  | head hstep _ ih => exact .intro _ fun m' hstep' => hstep.unique hstep' ▸ ih

/-- every moment of a render comes to the same end -/
theorem Steps.to_last {first m last : Moment} (h : lib.Steps first m) (hall : lib.Steps first last)
    (hlast : ∀ m', ¬ lib.Step last m') : lib.Steps m last := by
  have hunique : Relator.RightUnique lib.Step := fun _ _ _ ha hb => ha.unique hb
  rcases Relation.ReflTransGen.total_of_right_unique hunique h hall with hrest | hback
  · exact hrest
  · rcases hback.cases_head with rfl | ⟨m', hstep, -⟩
    · exact .refl
    · exact absurd hstep (hlast m')

end Library

namespace Moment

variable (lib : Library) (chain : List String) (name : String) (slots : Slots) (cache : Cache)

/-- a render is over, with nothing else being rendered but what is on the chain -/
def ended : Moment :=
  ⟨[], chain, ((lib.renderWithin chain name slots).on cache).2,
    .back name slots ((lib.renderWithin chain name slots).on cache).1⟩

theorem steps_ended : lib.Steps (start chain name slots cache) (ended lib chain name slots cache) :=
  lib.steps_renderWithin chain name slots [] cache

theorem steps_ended_of_steps {m : Moment} (h : lib.Steps (start chain name slots cache) m) :
    lib.Steps m (ended lib chain name slots cache) :=
  h.to_last (steps_ended lib chain name slots cache) Library.not_step_back

theorem acc_start : Acc (fun m' m => lib.Step m m') (start chain name slots cache) :=
  Library.acc_of_steps (steps_ended lib chain name slots cache) Library.not_step_back

end Moment

end BlockTemplates
