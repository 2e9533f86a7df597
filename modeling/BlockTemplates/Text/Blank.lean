/-
Blank characters, trimming and words.

A character is blank when it has the Unicode property White_Space. `trim` drops the blanks at both ends of a text,
`words` cuts a text into its maximal runs of other characters.
-/
namespace BlockTemplates.Text

/-- the characters with the Unicode property White_Space -/
def isBlank (c : Char) : Bool :=
  let n := c.toNat
  (0x9 ≤ n && n ≤ 0xD) || n == 0x20 || n == 0x85 || n == 0xA0 || n == 0x1680 || (0x2000 ≤ n && n ≤ 0x200A) ||
    n == 0x2028 || n == 0x2029 || n == 0x202F || n == 0x205F || n == 0x3000

def trimStart (cs : List Char) : List Char :=
  cs.dropWhile isBlank

def trimEnd (cs : List Char) : List Char :=
  (cs.reverse.dropWhile isBlank).reverse

/-- a text without the blanks at its ends -/
def trim (cs : List Char) : List Char :=
  trimEnd (trimStart cs)

/-- the maximal runs of characters that are not blank -/
def words (cs : List Char) : List (List Char) :=
  (cs.splitOnP isBlank).filter fun word => !word.isEmpty

end BlockTemplates.Text
