/-
Template names and the markers that open and close a template's block.

A name is a nonempty run of ASCII letters, digits, hyphens, underscores and points. `startMarker name` and
`endMarker name` are the two markers of a block; `Marker.firstStart?` finds the leftmost start marker of a line.
-/
import BlockTemplates.Text.Cut

namespace BlockTemplates

def isAsciiAlphanumeric (c : Char) : Bool :=
  c.isAlpha || c.isDigit

/-- a character that may stand in a template name -/
def isNameChar (c : Char) : Bool :=
  isAsciiAlphanumeric c || c == '-' || c == '_' || c == '.'

/-- a nonempty run of name characters -/
def isNameText (cs : List Char) : Bool :=
  !cs.isEmpty && cs.all isNameChar

theorem isNameText_iff {cs : List Char} : isNameText cs = true ↔ cs ≠ [] ∧ ∀ c ∈ cs, isNameChar c = true := by
  simp [isNameText]

def isTemplateName (name : String) : Bool :=
  isNameText name.toList

namespace Marker

/-- what stands before the name in a start marker -/
def opening : List Char := "<%%STARTTEMPLATE ".toList

/-- what stands before the name in an end marker -/
def closing : List Char := "<%%ENDTEMPLATE ".toList

/-- what stands behind the name in a marker -/
def tail : List Char := "%%>".toList

/-- the marker that starts the block of `name` -/
def start (name : List Char) : List Char :=
  opening ++ name ++ tail

/-- the marker that ends the block of `name` -/
def stop (name : List Char) : List Char :=
  closing ++ name ++ tail

/-- a start marker at the head of a text: its name, and the text behind it -/
def start? (cs : List Char) : Option (List Char × List Char) := do
  let rest ← opening.isPrefixOf? cs
  let name := rest.takeWhile isNameChar
  let after ← tail.isPrefixOf? (rest.dropWhile isNameChar)
  if name.isEmpty then none else some (name, after)

/-- the leftmost start marker of a text: its name, and the text behind it -/
def firstStart? : List Char → Option (List Char × List Char)
  | [] => none
  | c :: cs => (start? (c :: cs)).or (firstStart? cs)

end Marker

def startMarker (name : String) : String :=
  String.ofList (Marker.start name.toList)

def endMarker (name : String) : String :=
  String.ofList (Marker.stop name.toList)

end BlockTemplates
