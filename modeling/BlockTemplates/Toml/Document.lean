/-
TOML documents.

`Document.ofString?` reads a whole document into its table, and is none for every malformed one. Arrays and inline
tables may go over several lines, end in a comma and hold comments, also around an equals sign; they nest at most 80
deep, and no key has more than 80 parts.

Values are read by recursion on a fuel that starts above twice the length of the document, since every second call
takes a character; lines by recursion on their number.
-/
import BlockTemplates.Name
import BlockTemplates.Toml.Quotation
import BlockTemplates.Toml.Scalar
import BlockTemplates.Toml.Table

namespace BlockTemplates.Toml

namespace Document

def skipSpaces (cs : List Char) : List Char :=
  cs.dropWhile Quotation.isSpace

/-- the text behind blanks, line feeds and comments -/
def skipTrivia : Bool → List Char → Option (List Char)
  | _, [] => some []
  | _, '\n' :: rest => skipTrivia false rest
  | _, '\r' :: '\n' :: rest => skipTrivia false rest
  | true, c :: rest => if Quotation.isControl c then none else skipTrivia true rest
  | false, '#' :: rest => skipTrivia true rest
  | false, c :: rest => if Quotation.isSpace c then skipTrivia false rest else some (c :: rest)

/-- the text behind the end of a line, which may hold blanks and a comment -/
def endLine (cs : List Char) : Option (List Char) :=
  let afterComment :=
    match skipSpaces cs with
    | '#' :: rest => rest.dropWhile fun c => !Quotation.isControl c
    | rest => rest
  match afterComment with
  | [] => some []
  | '\n' :: rest => some rest
  | '\r' :: '\n' :: rest => some rest
  | _ => none

def isBareKeyChar (c : Char) : Bool :=
  isAsciiAlphanumeric c || c == '_' || c == '-'

/-- one part of a key -/
def keyPart (cs : List Char) : Option (String × List Char) :=
  match cs with
  | '"' :: rest => (Quotation.basic rest).map fun (key, rest) => (String.ofList key, rest)
  | '\'' :: rest => (Quotation.literal rest).map fun (key, rest) => (String.ofList key, rest)
  | _ =>
    let key := cs.takeWhile isBareKeyChar
    if key.isEmpty then none else some (String.ofList key, cs.dropWhile isBareKeyChar)

/-- a key of at most so many parts: its parts but the last, the last part, and the text behind the blanks after it -/
def keyParts : Nat → List Char → Option (List String × String × List Char)
  | 0, _ => none
  | most + 1, cs => do
    let (part, rest) ← keyPart (skipSpaces cs)
    match skipSpaces rest with
    | '.' :: rest =>
      let (path, key, rest) ← keyParts most rest
      some (part :: path, key, rest)
    | rest => some ([], part, rest)

/-- how many arrays and inline tables may nest, and how many parts a key may have -/
def maxLevels : Nat :=
  80

def dottedKey (cs : List Char) : Option (List String × String × List Char) :=
  keyParts maxLevels cs

def isScalarChar (c : Char) : Bool :=
  !(['=', ',', '[', ']', '\x7b', '\x7d', '#', ' ', '\t', '\r', '\n'].contains c)

/-- an unquoted value; a time may follow a date behind one blank -/
def scalar (cs : List Char) : Option (Value × List Char) :=
  let word := cs.takeWhile isScalarChar
  let rest := cs.dropWhile isScalarChar
  match rest with
  | ' ' :: c :: more =>
    if Datetime.isDate word && c.isDigit then
      let time := (c :: more).takeWhile isScalarChar
      (Scalar.ofChars? (word ++ ' ' :: time)).map fun v => (v, (c :: more).dropWhile isScalarChar)
    else (Scalar.ofChars? word).map fun v => (v, rest)
  | _ => (Scalar.ofChars? word).map fun v => (v, rest)

mutual

/-- a value that may nest `levels` arrays and inline tables -/
def value : Nat → Nat → List Char → Option (Value × List Char)
  | 0, _, _ => none
  | fuel + 1, levels, cs =>
    match Quotation.value? cs with
    | some read => read.map fun (s, rest) => (.string (String.ofList s), rest)
    | none =>
      match cs, levels with
      | '[' :: rest, levels + 1 => (items fuel levels rest).map fun (vs, rest) => (.array vs, rest)
      | '\x7b' :: rest, levels + 1 => (members fuel levels [] rest).map fun (t, rest) => (.table (finished t), rest)
      | _, _ => scalar cs

/-- the items of an array up to its closing bracket -/
def items : Nat → Nat → List Char → Option (List Value × List Char)
  | 0, _, _ => none
  | fuel + 1, levels, cs => do
    match ← skipTrivia false cs with
    | ']' :: rest => some ([], rest)
    | cs =>
      let (v, rest) ← value fuel levels cs
      match ← skipTrivia false rest with
      | ']' :: rest => some ([v], rest)
      | ',' :: rest =>
        let (vs, rest) ← items fuel levels rest
        some (v :: vs, rest)
      | _ => none

/-- the members of an inline table up to its closing brace, added to those read before -/
def members : Nat → Nat → Table → List Char → Option (Table × List Char)
  | 0, _, _, _ => none
  | fuel + 1, levels, t, cs => do
    match ← skipTrivia false cs with
    | '\x7d' :: rest => some (t, rest)
    | cs =>
      let (path, key, rest) ← dottedKey cs
      match ← skipTrivia false rest with
      | '=' :: rest =>
        let (v, rest) ← value fuel levels (← skipTrivia false rest)
        let t ← t.insertKey key v path
        match ← skipTrivia false rest with
        | '\x7d' :: rest => some (t, rest)
        | ',' :: rest => members fuel levels t rest
        | _ => none
      | _ => none

end

def keyValue (cs : List Char) : Option (List String × String × Value × List Char) := do
  let (path, key, rest) ← dottedKey cs
  match rest with
  | '=' :: rest =>
    let (v, rest) ← value (2 * rest.length + 2) maxLevels (skipSpaces rest)
    some (path, key, v, rest)
  | _ => none

/-- the lines of a document, under the header `header`, added to the document's table -/
def lines : Nat → List String → Table → List Char → Option Table
  | 0, _, _, _ => none
  | fuel + 1, header, t, cs =>
    match skipSpaces cs with
    | [] => some t
    | '[' :: '[' :: rest => do
      let (path, key, rest) ← dottedKey rest
      match rest with
      | ']' :: ']' :: rest =>
        let t ← t.modifyAt (Table.openItem key) path
        lines fuel (path ++ [key]) t (← endLine rest)
      | _ => none
    | '[' :: rest => do
      let (path, key, rest) ← dottedKey rest
      match rest with
      | ']' :: rest =>
        let t ← t.modifyAt (Table.openTable key) path
        lines fuel (path ++ [key]) t (← endLine rest)
      | _ => none
    | c :: rest =>
      if c == '#' || c == '\n' || c == '\r' then do
        lines fuel header t (← endLine (c :: rest))
      else do
        let (path, key, v, rest) ← keyValue (c :: rest)
        let t ← t.modifyAt (Table.insertKey key v path) header
        lines fuel header t (← endLine rest)

/-- a text without a byte order mark at its start -/
def dropMark : List Char → List Char
  | '\uFEFF' :: rest => rest
  | cs => cs

def ofString? (text : String) : Option (Entries Value) :=
  let cs := dropMark text.toList
  (lines (cs.length + 1) [] [] cs).map finished

end Document

end BlockTemplates.Toml
