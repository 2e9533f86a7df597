/-
The three policies compared.

A parse finds the same blocks under every policy, so what tells the policies apart is what they do with a block whose
name is taken. Overwriting and ignoring refuse nothing: they end alike and give the same names in the same order
(`names_addAll_congr`). A name leads to its last block when blocks are overwritten (`find?_addAll_overwrite`), and to the
template it had, or else to its first block, when they are ignored (`find?_addAll_ignore`). Where no block is refused, no
block meets a taken name, and all policies do the same (`addAll_of_addAll_error`). `parse_policies` is this about parses.
-/
import BlockTemplates.Proofs.Library.Effect
import BlockTemplates.Proofs.Markup.Stored

namespace BlockTemplates

namespace Library

def firstNamed? (name : String) (templates : List Template) : Option Template :=
  templates.find? fun t => t.name = name

def lastNamed? (name : String) (templates : List Template) : Option Template :=
  firstNamed? name templates.reverse

theorem firstNamed?_cons (name : String) (t : Template) (rest : List Template) :
    firstNamed? name (t :: rest) = if t.name = name then some t else firstNamed? name rest := by
  rw [firstNamed?, List.find?_cons]
  split <;> simp_all [firstNamed?]

theorem lastNamed?_cons (name : String) (t : Template) (rest : List Template) :
    lastNamed? name (t :: rest) = (lastNamed? name rest).or (if t.name = name then some t else none) := by
  rw [lastNamed?, List.reverse_cons, firstNamed?, List.find?_append, ← firstNamed?, ← firstNamed?, firstNamed?_cons]
  rfl

variable {policy : Policy} {lib lib' : Library}

/-! ## Additions in sequence -/

theorem addAll_cons_of_add {t : Template} (h : lib.add t policy = .ok lib') (rest : List Template) :
    addAll policy (t :: rest) lib = addAll policy rest lib' := by
  rw [addAll, h]

/-- the name of the last template that has it leads to this one -/
theorem find?_addAll_overwrite (templates : List Template) (lib : Library) (name : String) :
    (addAll .overwrite templates lib).1.find? name = (lastNamed? name templates).or (lib.find? name) := by
  induction templates generalizing lib with
  | nil => rfl
  | cons t rest ih =>
    obtain ⟨next, hadd⟩ := exists_add (nofun : Policy.overwrite ≠ .error) t lib
    rw [addAll_cons_of_add hadd, ih, find?_add hadd, lastNamed?_cons, Option.or_assoc]
    by_cases hname : t.name = name <;> simp [hname]

/-- a name keeps its template, and else leads to the first template that has it -/
theorem find?_addAll_ignore (templates : List Template) (lib : Library) (name : String) :
    (addAll .ignore templates lib).1.find? name = (lib.find? name).or (firstNamed? name templates) := by
  induction templates generalizing lib with
  | nil => exact (Option.or_none).symm
  | cons t rest ih =>
    obtain ⟨next, hadd⟩ := exists_add (nofun : Policy.ignore ≠ .error) t lib
    rw [addAll_cons_of_add hadd, ih, find?_add hadd, firstNamed?_cons]
    rcases hfind : lib.find? name with _ | old
    · have hfree : name ∉ lib.names := find?_eq_none_iff.1 hfind
      by_cases hname : t.name = name <;> simp [hname, hfree]
    · have htaken : name ∈ lib.names := mem_names_of_find? hfind
      simp [htaken]

/-- the names are the same under all policies that refuse nothing -/
theorem names_addAll_congr {other : Library} {policy' : Policy} (h : policy ≠ .error) (h' : policy' ≠ .error)
    (hnames : lib.names = other.names) (templates : List Template) :
    (addAll policy templates lib).1.names = (addAll policy' templates other).1.names := by
  induction templates generalizing lib other with
  | nil => exact hnames
  | cons t rest ih =>
    obtain ⟨next, hadd⟩ := exists_add h t lib
    obtain ⟨next', hadd'⟩ := exists_add h' t other
    rw [addAll_cons_of_add hadd, addAll_cons_of_add hadd']
    apply ih
    rw [names_add hadd, names_add hadd', hnames]

/-- templates of which none is refused are added alike under all policies -/
theorem addAll_of_addAll_error {templates : List Template} (h : addAll .error templates lib = (lib', .ok ()))
    (policy : Policy) : addAll policy templates lib = (lib', .ok ()) := by
  induction templates generalizing lib with
  | nil => exact h
  | cons t rest ih =>
    obtain ⟨next, hadd, hrest⟩ := addAll_cons_ok_iff.1 h
    have hfree : t.name ∉ lib.names := by
      intro hmem
      rw [add_refused ⟨rfl, hmem⟩] at hadd
      cases hadd
    rw [add_fresh hfree] at hadd
    exact addAll_cons_ok_iff.2 ⟨next, (add_fresh hfree policy).trans hadd, ih hrest⟩

/-! ## Parses -/

/-- **How the policies relate.** Overwriting and ignoring end alike, with no error or with the same block that is not
closed, and give the same names in the same order. When blocks are overwritten, a name leads to its last block, and else
to the template it had; when they are ignored, to the template it had, and else to its first block. If a parse succeeds
under the policy that refuses taken names, it leaves the same library under every policy. -/
theorem parse_policies (lib : Library) (input : String) :
    ((lib.parse input .overwrite).2 = (lib.parse input .ignore).2 ∧
      ((lib.parse input .overwrite).2 = .ok () ∨
        ∃ name line, (lib.parse input .overwrite).2 = .error (.unterminatedTemplate name line))) ∧
    (lib.parse input .overwrite).1.names = (lib.parse input .ignore).1.names ∧
    (∀ name, (lib.parse input .overwrite).1.find? name =
      (lastNamed? name ((Markup.layout 1 input.toList).blocks.map Markup.Block.template)).or (lib.find? name)) ∧
    (∀ name, (lib.parse input .ignore).1.find? name =
      (lib.find? name).or (firstNamed? name ((Markup.layout 1 input.toList).blocks.map Markup.Block.template))) ∧
    ∀ lib', lib.parse input .error = (lib', .ok ()) → ∀ policy, lib.parse input policy = (lib', .ok ()) := by
  have hoverwrites : Policy.overwrite ≠ .error := nofun
  have hignores : Policy.ignore ≠ .error := nofun
  have hoverwrite := parse_of_ne_error hoverwrites lib input
  have hignore := parse_of_ne_error hignores lib input
  refine ⟨⟨?_, ?_⟩, ?_, ?_, ?_, ?_⟩
  · rw [hoverwrite, hignore]
  · rw [hoverwrite]
    exact Markup.Layout.outcome_cases _
  · rw [hoverwrite, hignore]
    exact names_addAll_congr hoverwrites hignores rfl _
  · intro name
    rw [hoverwrite]
    exact find?_addAll_overwrite _ lib name
  · intro name
    rw [hignore]
    exact find?_addAll_ignore _ lib name
  · intro lib' h policy
    obtain ⟨htail, hadd⟩ := parse_eq_ok_iff.1 h
    exact parse_eq_ok_iff.2 ⟨htail, addAll_of_addAll_error hadd policy⟩

/-- blocks of `a`, of `b`, and of `a` again with a start marker of `b` in it, and behind them a block of `b` that is not
closed -/
def repeatedText : String :=
  "<%%STARTTEMPLATE a%%>1<%%ENDTEMPLATE a%%>\n<%%STARTTEMPLATE b%%>2<%%ENDTEMPLATE b%%>\n" ++
    "<%%STARTTEMPLATE a%%>\n<%%STARTTEMPLATE b%%>3<%%ENDTEMPLATE a%%>\n<%%STARTTEMPLATE b%%>4"

/-- what one block leaves, whatever is done with taken names -/
def oneBlock : Library :=
  (empty.parse "<%%STARTTEMPLATE a%%>old<%%ENDTEMPLATE a%%>" .error).1

theorem parse_policies_repeated :
    (∀ policy, empty.parse "<%%STARTTEMPLATE a%%>old<%%ENDTEMPLATE a%%>" policy = (oneBlock, .ok ())) ∧
    (oneBlock.parse repeatedText .overwrite).2 = (oneBlock.parse repeatedText .ignore).2 ∧
    (oneBlock.parse repeatedText .ignore).2 = .error (.unterminatedTemplate "b" 5) ∧
    (oneBlock.parse repeatedText .overwrite).1.templates.map Template.body = ["<%%STARTTEMPLATE b%%>3", "2"] ∧
    (oneBlock.parse repeatedText .ignore).1.templates.map Template.body = ["old", "2"] := by
  have hok : (empty.parse "<%%STARTTEMPLATE a%%>old<%%ENDTEMPLATE a%%>" .error).2 = .ok () := by decide +kernel
  refine ⟨(parse_policies empty _).2.2.2.2 oneBlock (Prod.ext rfl hok), (parse_policies oneBlock repeatedText).1.1, ?_⟩
  decide +kernel

end Library

end BlockTemplates
