/-
Everything that can go wrong, with the words for it.

An `Error` is a cause. `Error.message`, `Error.code` and `Error.help` are its three texts; the causes whose words come
from outside, a file system or a malformed document, have no message of their own.
-/
import BlockTemplates.Glob.Fault
import BlockTemplates.Json.Fault
import BlockTemplates.Name

namespace BlockTemplates

/-- a failure of the file system -/
inductive FileFault where
  /-- a file is not text in UTF-8 -/
  | notText
  /-- a directory cannot be listed -/
  | notListed
  deriving DecidableEq, Repr

/-- what is wrong with given slots -/
inductive SlotProblem where
  /-- a pair has no equals sign -/
  | noSeparator (raw : String)
  /-- a pair has nothing but blanks in front of its equals sign -/
  | noName (raw : String)
  /-- a slot holds NaN or an infinity -/
  | notFinite (name : String)
  | json (error : Json.ReadError)
  deriving DecidableEq

def SlotProblem.message : SlotProblem → String
  | noSeparator raw => s!"expected `key=value`, got `{raw}`"
  | noName raw => s!"missing slot name in `{raw}`"
  | notFinite name => s!"slot `{name}` contains a number that is not finite"
  | json error => error.message

/-- the shapes a setting can have to have -/
inductive Shape where
  | sequence
  | string
  | map
  deriving DecidableEq, Repr

def Shape.describe : Shape → String
  | sequence => "a sequence"
  | string => "a string"
  | map => "a map"

/-- what is wrong with a configuration -/
inductive ConfigProblem where
  /-- the document is malformed -/
  | malformed
  | badPattern (pattern : String) (fault : Glob.Fault)
  | notFinite (slot : String) (x : Number)
  | unknownField (name : String)
  | unknownPolicy (name : String)
  | wrongShape (found : Found) (expected : Shape)
  deriving DecidableEq

/-- floats in the words for a wrong shape: never an exponent, always a fraction -/
def foundLayout : Layout :=
  { Layout.plain with wholeFraction := true }

/-- the words for a problem with a configuration; a malformed document has none -/
def ConfigProblem.message : ConfigProblem → Option String
  | malformed => none
  | badPattern pattern fault =>
    some s!"invalid source pattern `{pattern}`: error parsing glob '{pattern}': {fault.message}"
  | notFinite slot x => some s!"invalid slot `{slot}`: `{x.display}` is not a finite number"
  | unknownField name => some s!"unknown field `{name}`, expected one of `sources`, `duplicates`, `slots`"
  | unknownPolicy name => some s!"unknown variant `{name}`, expected one of `error`, `overwrite`, `ignore`"
  | wrongShape found expected =>
    some s!"invalid type: {found.describe foundLayout}, expected {expected.describe}"

inductive Error where
  | file (fault : FileFault)
  | unterminatedTemplate (name : String) (line : Nat)
  | duplicateTemplate (name : String) (line : Option Nat)
  | missingTemplate (name : String)
  /-- the names being rendered, outermost first, and the one that was met again -/
  | renderCycle (name : String) (chain : List String)
  | invalidTemplateName (name : String)
  | config (problem : ConfigProblem)
  | sourceFile (path : String) (source : Error)
  | invalidSlots (problem : SlotProblem)
  deriving DecidableEq

namespace Error

/-- what went wrong, in one sentence -/
def message : Error → Option String
  | file _ => none
  | unterminatedTemplate name line =>
    some s!"no end marker found for template `{name}` (started on line {line})"
  | duplicateTemplate name none => some s!"template `{name}` already exists in the library"
  | duplicateTemplate name (some line) =>
    some s!"template `{name}` already exists in the library (duplicate started on line {line})"
  | missingTemplate name => some s!"template `{name}` does not exist in the library"
  | renderCycle name chain =>
    let steps := String.intercalate " -> " chain
    some s!"template `{name}` renders itself: {steps}"
  | invalidTemplateName name => some s!"invalid template name: `{name}`"
  | config problem => problem.message
  | sourceFile path _ => some s!"failed to load templates from `{path}`"
  | invalidSlots problem => some s!"invalid slot values: {problem.message}"

/-- the name of the kind of error -/
def code : Error → String
  | file _ => "stencil::io_error"
  | unterminatedTemplate .. => "stencil::unterminated_template"
  | duplicateTemplate .. => "stencil::duplicate_template"
  | missingTemplate _ => "stencil::missing_template"
  | renderCycle .. => "stencil::render_cycle"
  | invalidTemplateName _ => "stencil::invalid_template_name"
  | config _ => "stencil::config_parse"
  | sourceFile .. => "stencil::source_file"
  | invalidSlots _ => "stencil::invalid_slots"

/-- what can be done about it -/
def help : Error → Option String
  | file _ => none
  | unterminatedTemplate name _ =>
    let marker := endMarker name
    some s!"add `{marker}` to close this template"
  | duplicateTemplate .. => some "choose the `overwrite` or `ignore` duplicate policy to allow repeated names"
  | missingTemplate name =>
    let first := startMarker name
    let last := endMarker name
    some s!"define it with `{first}...{last}`"
  | renderCycle name _ => some s!"remove the nested invocation that leads back to `{name}`"
  | invalidTemplateName _ => some "template names may only contain letters, digits, `-`, `_` and `.`"
  | config _ => some "check that stencil.toml is valid TOML with `sources`, `duplicates` and `[slots]`"
  | sourceFile .. => none
  | invalidSlots _ => some "slots are a JSON object, or `key=value` pairs on the command line"

end Error

end BlockTemplates
