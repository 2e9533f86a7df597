/-
Templates: a valid name and a body.

The segments of a template are those of its body. `Template.render` writes the segments one after another; what an
invocation writes is asked of `nested`, so the same function serves every way of rendering.
-/
import BlockTemplates.Error
import BlockTemplates.Slots
import BlockTemplates.Template.Segment

namespace BlockTemplates

/-- a named body -/
structure Template where
  name : String
  body : String
  validName : isTemplateName name = true
  deriving DecidableEq

namespace Template

/-- the template with a name and a body; refuses an invalid name -/
def make (name body : String) : Except Error Template :=
  if h : isTemplateName name = true then .ok ⟨name, body, h⟩ else .error (.invalidTemplateName name)

def segments (t : Template) : List Segment :=
  tokenize t.body

/-- the names of the templates a body invokes, in order -/
def dependencies (t : Template) : List String :=
  t.segments.filterMap Segment.invoked?

end Template

/-- the text of a value that may be missing -/
def displayed (value : Option Value) : String :=
  match value with
  | some v => v.display
  | none => ""

def Segment.render {m : Type → Type} [Monad m] (nested : String → Slots → m String) (slots : Slots) :
    Segment → m String
  | text cs => pure cs
  | slot path => pure (displayed (slots.resolve path))
  | invoke name scope => nested name (slots.within scope)

def renderSegments {m : Type → Type} [Monad m] (nested : String → Slots → m String) (slots : Slots) :
    List Segment → m String
  | [] => pure ""
  | segment :: rest => do
    let first ← segment.render nested slots
    let others ← renderSegments nested slots rest
    pure (first ++ others)

/-- the output of a template; `nested` writes the templates it invokes -/
def Template.render {m : Type → Type} [Monad m] (nested : String → Slots → m String) (slots : Slots)
    (t : Template) : m String :=
  renderSegments nested slots t.segments

end BlockTemplates
