/-
Glob patterns.

`*` and `?` stand for bytes of one path component, `**` as a whole component for any number of components, a class for
one byte, and a group in braces for one of its branches. Groups may nest; a branch without any text is no branch. A
backslash takes the next character as it is. A class that is never closed is a fault, or its bracket stands for itself,
as the reader of the pattern asks.

`Glob.read` goes through a pattern character by character. Its state holds the items before the place it has reached and
the groups that are open there.
-/
import BlockTemplates.Glob.Fault

namespace BlockTemplates

namespace Glob

inductive Item where
  | char (c : Char)
  /-- any byte but a separator -/
  | any
  /-- any bytes but separators -/
  | many
  /-- any components at the start of a path -/
  | leading
  /-- a separator and all behind it -/
  | trailing
  /-- a separator, or any components between two separators -/
  | between
  /-- one byte in one of the ranges, or in none of them -/
  | byte (negated : Bool) (ranges : List (UInt8 × UInt8))
  /-- one of the branches; without branches, nothing -/
  | group (branches : List (List Item))

/-- whether an item stands for no text at all -/
def Item.isVoid : Item → Bool
  | group [] => true
  | _ => false

/-- a group that is still open: its finished branches, and the items before it, both from the last on -/
structure OpenGroup where
  branches : List (List Item)
  before : List Item

/-- a class that is still open: its ranges from the last on, and whether a hyphen asks for the end of the last one -/
structure OpenClass where
  /-- whether it excludes its ranges, once its first character is known -/
  negated : Option Bool
  ranges : List (Char × Char)
  inRange : Bool

/-- what an opening bracket means -/
inductive Bracket where
  /-- the start of a class, which has to be closed -/
  | strict
  /-- the start of a class, or itself if the class is never closed -/
  | lenient
  /-- itself -/
  | plain
  deriving DecidableEq, Repr

/-- what has been read of a pattern -/
structure Reading where
  /-- the items of the current branch, from the last on -/
  items : List Item
  /-- the open groups, the innermost first -/
  groups : List OpenGroup
  bracket : Bracket

namespace Reading

def push (r : Reading) (item : Item) : Reading :=
  { r with items := item :: r.items }

/-- the branches of a group that stand for some text -/
def keptBranches (branches : List (List Item)) : List (List Item) :=
  branches.filter fun branch => !branch.all Item.isVoid

def openGroup (r : Reading) : Reading :=
  { r with items := [], groups := ⟨[], r.items⟩ :: r.groups }

/-- ends a branch of the innermost group, or is a plain comma -/
def nextBranch (r : Reading) : Reading :=
  match r.groups with
  | [] => r.push (.char ',')
  | g :: outer => { r with items := [], groups := { g with branches := r.items.reverse :: g.branches } :: outer }

def closeGroup (r : Reading) : Except Fault Reading :=
  match r.groups with
  | [] => .error .unopenedAlternates
  | g :: outer =>
    let group := Item.group (keptBranches (r.items.reverse :: g.branches).reverse)
    .ok { r with items := group :: g.before, groups := outer }

/-- two stars that are no component of their own -/
def pushTwoStars (r : Reading) : Reading :=
  (r.push .many).push .many

/-- two stars as a component: they take the separator before them, unless there were two stars before it -/
def pushComponent (r : Reading) (last : Bool) : Reading :=
  match r.items with
  | .leading :: _ => r
  | .trailing :: _ => r
  | _ :: items => { r with items := (if last then .trailing else .between) :: items }
  | [] => r

end Reading

namespace OpenClass

def endRange (k : OpenClass) (c : Char) : Except Fault OpenClass :=
  match k.ranges with
  | (first, _) :: ranges =>
    if c < first then .error (.invalidRange first c)
    else .ok { k with ranges := (first, c) :: ranges, inRange := false }
  | [] => .ok k

/-- a class of which only the bracket has been read -/
def start : OpenClass :=
  ⟨none, [], false⟩

/-- one character of a class; none at its end -/
def step (k : OpenClass) (c : Char) : Except Fault (Option OpenClass) :=
  if k.negated = none ∧ (c = '!' ∨ c = '^') then .ok (some { k with negated := some true })
  else if k.ranges.isEmpty then .ok (some { k with negated := some (k.negated.getD false), ranges := [(c, c)] })
  else if c = ']' then .ok none
  else if k.inRange then (k.endRange c).map some
  else if c = '-' then .ok (some { k with inRange := true })
  else .ok (some { k with ranges := (c, c) :: k.ranges })

/-- whether a pattern ends before the class does, without a fault -/
def runsOut (k : OpenClass) : List Char → Bool
  | [] => true
  | c :: cs =>
    match k.step c with
    | .ok (some k) => k.runsOut cs
    | _ => false

/-- the bytes of a range of characters: all bytes of its ends, and those between the last one and the first one -/
def byteRanges (range : Char × Char) : List (UInt8 × UInt8) :=
  let first := String.utf8EncodeChar range.1
  let last := String.utf8EncodeChar range.2
  if range.1 = range.2 then first.map fun b => (b, b)
  else
    match first.reverse, last with
    | low :: before, high :: after => (before ++ after).map (fun b => (b, b)) ++ [(low, high)]
    | _, _ => []

/-- the item of a closed class; a hyphen at its end is a plain one -/
def item (k : OpenClass) : Item :=
  let ranges := if k.inRange then ('-', '-') :: k.ranges else k.ranges
  .byte (k.negated.getD false) (ranges.flatMap byteRanges)

end OpenClass

/-- an opening bracket: a class, or a plain character, and then so are all brackets behind it -/
def Reading.openBracket (r : Reading) (cs : List Char) : Reading × Option OpenClass :=
  if r.bracket = .plain ∨ (r.bracket = .lenient ∧ OpenClass.start.runsOut cs = true) then
    ({ r with bracket := .plain }.push (.char '['), none)
  else (r, some OpenClass.start)

/-- reads a pattern; `last` is the character before the place that has been reached -/
def read : Reading → Option OpenClass → Option Char → List Char → Except Fault (List Item)
  | _, some _, _, [] => .error .unclosedClass
  | r, none, _, [] => if r.groups.isEmpty then .ok r.items.reverse else .error .unclosedAlternates
  | r, some k, _, c :: cs => do
    match ← k.step c with
    | some k => read r (some k) (some c) cs
    | none => read (r.push k.item) none (some c) cs
  | r, none, _, '?' :: cs => read (r.push .any) none (some '?') cs
  | r, none, last, '*' :: '*' :: cs =>
    if r.items.isEmpty then
      match cs with
      | [] => read (r.push .leading) none (some '*') []
      | '/' :: cs => read (r.push .leading) none (some '/') cs
      | cs => read r.pushTwoStars none (some '*') cs
    else if last ≠ some '/' ∧ (r.groups.isEmpty ∨ (last ≠ some ',' ∧ last ≠ some '\x7b')) then
      read r.pushTwoStars none (some '*') cs
    else
      match cs with
      | [] => read (r.pushComponent true) none (some '*') []
      | '/' :: cs => read (r.pushComponent false) none (some '/') cs
      | c :: cs =>
        if !r.groups.isEmpty && (c == ',' || c == '\x7d') then read (r.pushComponent true) none (some '*') (c :: cs)
        else read r.pushTwoStars none (some '*') (c :: cs)
  | r, none, _, '*' :: cs => read (r.push .many) none (some '*') cs
  | r, none, _, '[' :: cs => read (r.openBracket cs).1 (r.openBracket cs).2 (some '[') cs
  | r, none, _, '\x7b' :: cs => read r.openGroup none (some '\x7b') cs
  | r, none, _, '\x7d' :: cs => do read (← r.closeGroup) none (some '\x7d') cs
  | r, none, _, ',' :: cs => read r.nextBranch none (some ',') cs
  | _, none, _, ['\\'] => .error .danglingEscape
  | r, none, _, '\\' :: c :: cs => read (r.push (.char c)) none (some c) cs
  | r, none, _, c :: cs => read (r.push (.char c)) none (some c) cs

end Glob

/-- a pattern for relative paths -/
structure Glob where
  items : List Glob.Item

/-- reads a pattern whose brackets have a meaning -/
def Glob.ofStringWith (bracket : Glob.Bracket) (pattern : String) : Except Glob.Fault Glob :=
  (Glob.read ⟨[], [], bracket⟩ none none pattern.toList).map Glob.mk

/-- reads a pattern in which every class is closed -/
def Glob.ofString (pattern : String) : Except Glob.Fault Glob :=
  Glob.ofStringWith .strict pattern

end BlockTemplates
