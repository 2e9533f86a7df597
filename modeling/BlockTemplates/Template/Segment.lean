/-
Segments of a template body: literal text, slots and invocations of other templates.

`Segment.ofTokens` reads tokens, `tokenize` a body. Whatever is not a well formed tag is literal text, and adjacent
literal text is one segment. `Segment.chars` is the way a segment is shown.
-/
import BlockTemplates.Path
import BlockTemplates.Text.Blank
import BlockTemplates.Template.Token

namespace BlockTemplates

/-- a piece of a body with a meaning of its own -/
inductive Segment where
  /-- text that is copied as it stands -/
  | text (cs : String)
  /-- the value found at a path -/
  | slot (path : SlotPath)
  /-- another template, with all slots or with the map found at `scope` -/
  | invoke (name : String) (scope : Option SlotPath)
  deriving DecidableEq, Repr

namespace Segment

/-- the inside of a slot tag: one path between blanks -/
def slot? (inner : List Char) : Option Segment :=
  (SlotPath.ofChars? (Text.trim inner)).map slot

/-- the inside of an invocation: a template name, and perhaps one path -/
def invoke? (inner : List Char) : Option Segment :=
  match Text.words inner with
  | [name] => if isNameText name then some (invoke (String.ofList name) none) else none
  | [name, scope] =>
    if isNameText name then (SlotPath.ofChars? scope).map fun path => invoke (String.ofList name) (some path)
    else none
  | _ => none

/-- puts literal text in front of segments; literal text that follows joins it -/
def consText (cs : List Char) : List Segment → List Segment
  | text rest :: segments => text (String.ofList cs ++ rest) :: segments
  | segments => text (String.ofList cs) :: segments

/-- reads tags; a bracket that opens none is literal text, and reading goes on behind it -/
def ofTokens : List Token → List Segment
  | [] => []
  | .openSlot :: .text inner :: .close :: tokens =>
    match slot? inner with
    | some segment => segment :: ofTokens tokens
    | none => consText Token.openSlot.chars (ofTokens (.text inner :: .close :: tokens))
  | .openInvoke :: .text inner :: .close :: tokens =>
    match invoke? inner with
    | some segment => segment :: ofTokens tokens
    | none => consText Token.openInvoke.chars (ofTokens (.text inner :: .close :: tokens))
  | token :: tokens => consText token.chars (ofTokens tokens)

/-- the way a segment is shown: a tag has one blank inside each bracket -/
def chars : Segment → List Char
  | text cs => cs.toList
  | slot path => ['{', '{', ' '] ++ path.chars ++ [' ', '}', '}']
  | invoke name none => ['{', '{', '>', ' '] ++ name.toList ++ [' ', '}', '}']
  | invoke name (some path) => ['{', '{', '>', ' '] ++ name.toList ++ [' '] ++ path.chars ++ [' ', '}', '}']

def invoked? : Segment → Option String
  | invoke name _ => some name
  | _ => none

end Segment

def tokenize (body : String) : List Segment :=
  Segment.ofTokens (Token.scan body.toList)

def shown (segments : List Segment) : String :=
  String.ofList (segments.flatMap Segment.chars)

end BlockTemplates
