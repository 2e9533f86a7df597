/-
Quoted text of TOML.

Basic strings have escapes, literal strings have none; both come on one line and, with three quotes, on several. A line
feed right behind three opening quotes is dropped, and up to two quotes may stand in front of three closing ones. In a
basic string of several lines a backslash at the end of a line joins it to the next character that is no blank.
-/
import BlockTemplates.Text.Escape

namespace BlockTemplates.Toml.Quotation

/-- characters that stand nowhere but in escapes; tabs are allowed, line feeds are up to the place -/
def isControl (c : Char) : Bool :=
  (c.toNat < 0x20 && c != '\t') || c.toNat == 0x7F

/-- the blanks inside a line -/
def isSpace (c : Char) : Bool :=
  c == ' ' || c == '\t'

/-- the character with a hexadecimal code point -/
def scalar? (digits : List Char) : Option Char := do
  let n ← Text.hexNumber? digits
  if n.isValidChar then some (Char.ofNat n) else none

/-- the character of a one letter escape -/
def escaped? (c : Char) : Option Char :=
  if c = '"' ∨ c = '\\' then some c
  else if c = 'e' then some (Char.ofNat 27)
  else Text.control? c

/-- puts a character in front of what is read behind it -/
def cons (c : Char) (read : Option (List Char × List Char)) : Option (List Char × List Char) :=
  read.map fun (cs, rest) => (c :: cs, rest)

/-- a basic string on one line, behind its quote -/
def basic : List Char → Option (List Char × List Char)
  | [] => none
  | '"' :: rest => some ([], rest)
  | '\\' :: 'x' :: a :: b :: rest => (scalar? [a, b]).bind fun c => cons c (basic rest)
  | '\\' :: 'u' :: a :: b :: c :: d :: rest => (scalar? [a, b, c, d]).bind fun x => cons x (basic rest)
  | '\\' :: 'U' :: a :: b :: c :: d :: e :: f :: g :: h :: rest =>
    (scalar? [a, b, c, d, e, f, g, h]).bind fun x => cons x (basic rest)
  | '\\' :: c :: rest => (escaped? c).bind fun x => cons x (basic rest)
  | c :: rest => if isControl c then none else cons c (basic rest)

/-- a literal string on one line, behind its quote -/
def literal : List Char → Option (List Char × List Char)
  | [] => none
  | '\'' :: rest => some ([], rest)
  | c :: rest => if isControl c then none else cons c (literal rest)

/-- the quotes that stand in front of three closing quotes, which are behind `rest` already -/
def extraQuotes (quote : Char) : List Char → List Char × List Char
  | a :: b :: rest =>
    if a = quote && b = quote then ([quote, quote], rest)
    else if a = quote then ([quote], b :: rest)
    else ([], a :: b :: rest)
  | [a] => if a = quote then ([quote], []) else ([], [a])
  | [] => ([], [])

/-- whether only blanks stand in front of the end of the line -/
def endsLine (cs : List Char) : Bool :=
  match cs.dropWhile isSpace with
  | '\n' :: _ => true
  | '\r' :: '\n' :: _ => true
  | _ => false

/-- a basic string on several lines, behind its quotes; while `joining`, blanks and line feeds are dropped -/
def basicLines : Bool → List Char → Option (List Char × List Char)
  | _, [] => none
  | _, '"' :: '"' :: '"' :: rest => some (extraQuotes '"' rest)
  | _, '\\' :: 'x' :: a :: b :: rest => (scalar? [a, b]).bind fun c => cons c (basicLines false rest)
  | _, '\\' :: 'u' :: a :: b :: c :: d :: rest => (scalar? [a, b, c, d]).bind fun x => cons x (basicLines false rest)
  | _, '\\' :: 'U' :: a :: b :: c :: d :: e :: f :: g :: h :: rest =>
    (scalar? [a, b, c, d, e, f, g, h]).bind fun x => cons x (basicLines false rest)
  | _, '\\' :: c :: rest =>
    if endsLine (c :: rest) then basicLines true (c :: rest)
    else (escaped? c).bind fun x => cons x (basicLines false rest)
  | joining, '\r' :: '\n' :: rest =>
    if joining then basicLines true rest else cons '\r' (cons '\n' (basicLines false rest))
  | joining, c :: rest =>
    if joining && (isSpace c || c == '\n') then basicLines true rest
    else if isControl c && c != '\n' then none
    else cons c (basicLines false rest)

/-- a literal string on several lines, behind its quotes -/
def literalLines : List Char → Option (List Char × List Char)
  | [] => none
  | '\'' :: '\'' :: '\'' :: rest => some (extraQuotes '\'' rest)
  | '\r' :: '\n' :: rest => cons '\r' (cons '\n' (literalLines rest))
  | c :: rest => if isControl c && c != '\n' then none else cons c (literalLines rest)

def dropNewline : List Char → List Char
  | '\n' :: rest => rest
  | '\r' :: '\n' :: rest => rest
  | cs => cs

/-- a quoted value, or none if the text starts with no quote -/
def value? : List Char → Option (Option (List Char × List Char))
  | '"' :: '"' :: '"' :: rest => some (basicLines false (dropNewline rest))
  | '\'' :: '\'' :: '\'' :: rest => some (literalLines (dropNewline rest))
  | '"' :: rest => some (basic rest)
  | '\'' :: rest => some (literal rest)
  | _ => none

end BlockTemplates.Toml.Quotation
