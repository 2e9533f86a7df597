/-
Why and where a JSON text cannot be read.

While a text is read, a fault counts the bytes behind it. For the reader of a message `Fault.locate` turns this into a
line and the number of bytes before the fault on that line.
-/
import BlockTemplates.Found

namespace BlockTemplates.Json

/-- why a JSON text cannot be read -/
inductive Reason where
  | eofInValue
  | eofInList
  | eofInObject
  | eofInString
  | expectedColon
  | expectedListComma
  | expectedObjectComma
  | expectedIdent
  | expectedValue
  | invalidEscape
  | invalidNumber
  | numberOutOfRange
  | keyNotString
  | loneSurrogate
  | unexpectedEndOfHex
  | controlCharacter
  | trailingComma
  | trailingCharacters
  | recursionLimit
  /-- the document is no object -/
  | notMap (found : Found)
  /-- a slot holds a null -/
  | noVariant
  deriving DecidableEq

def Reason.message : Reason → String
  | eofInValue => "EOF while parsing a value"
  | eofInList => "EOF while parsing a list"
  | eofInObject => "EOF while parsing an object"
  | eofInString => "EOF while parsing a string"
  | expectedColon => "expected `:`"
  | expectedListComma => "expected `,` or `]`"
  | expectedObjectComma => "expected `,` or `\x7d`"
  | expectedIdent => "expected ident"
  | expectedValue => "expected value"
  | invalidEscape => "invalid escape"
  | invalidNumber => "invalid number"
  | numberOutOfRange => "number out of range"
  | keyNotString => "key must be a string"
  | loneSurrogate => "lone leading surrogate in hex escape"
  | unexpectedEndOfHex => "unexpected end of hex escape"
  | controlCharacter => "control character (\\u0000-\\u001F) found while parsing a string"
  | trailingComma => "trailing comma"
  | trailingCharacters => "trailing characters"
  | recursionLimit => "recursion limit exceeded"
  | notMap found => "invalid type: " ++ found.describe Layout.canonical ++ ", expected a map"
  | noVariant => "data did not match any variant of untagged enum Value"

/-- a reason and the number of bytes behind the place it was found at -/
structure Fault where
  reason : Reason
  bytesBehind : Nat
  deriving DecidableEq

/-- a reason, a line counted from one, and the number of bytes before the place on the line -/
structure ReadError where
  reason : Reason
  line : Nat
  column : Nat
  deriving DecidableEq

def ReadError.message (e : ReadError) : String :=
  s!"{e.reason.message} at line {e.line} column {e.column}"

def byteCount (cs : List Char) : Nat :=
  cs.foldr (fun c bytes => c.utf8Size + bytes) 0

/-- the line and the column behind the first `bytes` bytes of a text that starts at a line and a column -/
def advance : List Char → Nat → Nat → Nat → Nat × Nat
  | [], bytes, line, column => (line, column + bytes)
  | c :: cs, bytes, line, column =>
    if bytes < c.utf8Size then (line, column + bytes)
    else if c = '\n' then advance cs (bytes - 1) (line + 1) 0
    else advance cs (bytes - c.utf8Size) line (column + c.utf8Size)

namespace Fault

/-- a fault before the text `rest` -/
def before (reason : Reason) (rest : List Char) : Fault :=
  ⟨reason, byteCount rest⟩

/-- a fault behind the first byte of the text `rest`, or at its end -/
def inside (reason : Reason) (rest : List Char) : Fault :=
  ⟨reason, byteCount rest - 1⟩

/-- the fault with its place in `text` -/
def locate (text : List Char) (fault : Fault) : ReadError :=
  let (line, column) := advance text (byteCount text - fault.bytesBehind) 1 0
  ⟨fault.reason, line, column⟩

end Fault

end BlockTemplates.Json
