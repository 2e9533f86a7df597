/-
Which paths a glob pattern matches.

Paths are byte sequences. `Item.rests` lists what may remain of a text once an item has taken its part, and a pattern
matches a path if nothing may remain.
-/
import BlockTemplates.Glob.Pattern

namespace BlockTemplates.Glob

/-- the separator of path components -/
def separator : UInt8 :=
  47

/-- a text and what remains of it without its first bytes, as long as these are accepted -/
def dropEach (accept : UInt8 → Bool) : List UInt8 → List (List UInt8)
  | [] => [[]]
  | b :: bs => (b :: bs) :: (if accept b then dropEach accept bs else [])

/-- what stands behind each separator of a text -/
def behindSeparators : List UInt8 → List (List UInt8)
  | [] => []
  | b :: bs => if b == separator then bs :: behindSeparators bs else behindSeparators bs

def inRanges (ranges : List (UInt8 × UInt8)) (b : UInt8) : Bool :=
  ranges.any fun (low, high) => low ≤ b && b ≤ high

mutual

/-- what may remain of a text behind an item -/
def Item.rests : Item → List UInt8 → List (List UInt8)
  | .char c, bs => ((String.utf8EncodeChar c).isPrefixOf? bs).toList
  | .any, b :: bs => if b == separator then [] else [bs]
  | .any, [] => []
  | .many, bs => dropEach (· != separator) bs
  | .leading, bs => bs :: behindSeparators bs
  | .trailing, b :: bs => if b == separator then dropEach (fun _ => true) bs else []
  | .trailing, [] => []
  | .between, b :: bs => if b == separator then bs :: behindSeparators bs else []
  | .between, [] => []
  | .byte negated ranges, b :: bs => if inRanges ranges b != negated then [bs] else []
  | .byte _ _, [] => []
  | .group [], bs => [bs]
  | .group (branch :: branches), bs => branchRests (branch :: branches) bs

/-- what may remain of a text behind one of several branches -/
def branchRests : List (List Item) → List UInt8 → List (List UInt8)
  | [], _ => []
  | branch :: branches, bs => restsAll branch [bs] ++ branchRests branches bs

/-- what may remain of one of several texts behind items -/
def restsAll : List Item → List (List UInt8) → List (List UInt8)
  | [], texts => texts
  | item :: items, texts => restsAll items (texts.flatMap item.rests).eraseDups

end

def isMatch (glob : Glob) (path : List UInt8) : Bool :=
  match glob.items with
  | [.leading] => true
  | items => (restsAll items [path]).contains []

end BlockTemplates.Glob
