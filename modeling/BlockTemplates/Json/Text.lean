/-
The canonical JSON text of values.

Maps are written with their keys in order, nothing is written between tokens, numbers have their canonical text, and
NaN and infinities are `null`. In strings only quotes, backslashes and control characters are escaped.
-/
import BlockTemplates.Number.Layout
import BlockTemplates.Value.Basic

namespace BlockTemplates

namespace Json

/-- a lower case hexadecimal digit -/
def hexDigit (n : Nat) : Char :=
  if n < 10 then Char.ofNat (48 + n) else Char.ofNat (87 + n)

/-- the text of one character inside a JSON string -/
def escapeChar (c : Char) : List Char :=
  if c = '"' then ['\\', '"']
  else if c = '\\' then ['\\', '\\']
  else if c = '\n' then ['\\', 'n']
  else if c = '\r' then ['\\', 'r']
  else if c = '\t' then ['\\', 't']
  else if c.toNat = 8 then ['\\', 'b']
  else if c.toNat = 12 then ['\\', 'f']
  else if c.toNat < 32 then ['\\', 'u', '0', '0', hexDigit (c.toNat / 16), hexDigit (c.toNat % 16)]
  else [c]

def string (cs : List Char) : List Char :=
  '"' :: (cs.flatMap escapeChar ++ ['"'])

/-- a JSON number, or `null` -/
def number : Number → List Char
  | .finite negative step => (Number.finite negative step).chars Layout.canonical
  | _ => "null".toList

mutual

/-- the canonical JSON of a value -/
def value : Value → List Char
  | .bool b => if b then "true".toList else "false".toList
  | .number x => number x
  | .string s => string s.toList
  | .list items => '[' :: (elements items ++ [']'])
  | .map entries => '{' :: (members entries ++ ['}'])

/-- JSON values with commas between them -/
def elements : List Value → List Char
  | [] => []
  | [v] => value v
  | v :: w :: rest => value v ++ ',' :: elements (w :: rest)

/-- JSON members with commas between them -/
def members : List (String × Value) → List Char
  | [] => []
  | [(k, v)] => string k.toList ++ ':' :: value v
  | (k, v) :: e :: rest => string k.toList ++ ':' :: (value v ++ ',' :: members (e :: rest))

end

end Json

namespace Value

def json (v : Value) : String :=
  String.ofList (Json.value v)

mutual

/-- the text of a value in a body: strings as they are, items with commas between them, maps as JSON -/
def displayChars : Value → List Char
  | bool b => if b then "true".toList else "false".toList
  | number x => x.chars Layout.plain
  | string s => s.toList
  | list items => displayItems items
  | map entries => Json.value (map entries)

/-- the texts of items with commas between them -/
def displayItems : List Value → List Char
  | [] => []
  | [v] => displayChars v
  | v :: w :: rest => displayChars v ++ ',' :: ' ' :: displayItems (w :: rest)

end

def display (v : Value) : String :=
  String.ofList v.displayChars

end Value

end BlockTemplates
