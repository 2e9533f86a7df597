/-
Unquoted values of TOML: booleans, integers, floats, dates and times.

Digits may be grouped by single underscores. A decimal integer has no zero in front of other digits; hexadecimal, octal
and binary integers have no sign. A float has a fraction, an exponent or both.

A text that starts like a grouped decimal integer has the form of one, whatever stands among its later characters, as
long as its underscores stand between digits of base sixteen. It is a value that cannot be read.
-/
import BlockTemplates.Text.Escape
import BlockTemplates.Toml.Datetime
import BlockTemplates.Toml.Value

namespace BlockTemplates.Toml

namespace Scalar

/-- digits without the underscores that stand between two of them; none if an underscore stands elsewhere -/
def ungroup? (isDigit : Char → Bool) : List Char → Option (List Char)
  | [] => none
  | [c] => if isDigit c then some [c] else none
  | c :: '_' :: rest => if isDigit c then (ungroup? isDigit rest).map (c :: ·) else none
  | c :: rest => if isDigit c then (ungroup? isDigit rest).map (c :: ·) else none

def isHexDigit (c : Char) : Bool :=
  (Text.hexValue? c).isSome

def isOctalDigit (c : Char) : Bool :=
  '0' ≤ c && c ≤ '7'

def isBinaryDigit (c : Char) : Bool :=
  c == '0' || c == '1'

/-- the value of digits of a base up to sixteen -/
def valueIn (base : Nat) (digits : List Char) : Nat :=
  digits.foldl (fun n c => n * base + (Text.hexValue? c).getD 0) 0

/-- the sign of a text, if it has one, and the rest -/
def signed : List Char → Bool × List Char
  | '-' :: rest => (true, rest)
  | '+' :: rest => (false, rest)
  | cs => (false, cs)

/-- decimal digits without a zero in front -/
def whole? (cs : List Char) : Option (List Char) := do
  let digits ← ungroup? Char.isDigit cs
  match digits with
  | '0' :: _ :: _ => none
  | _ => some digits

/-- an integer of base ten, or of the base that the two characters in front say -/
def integer? (cs : List Char) : Option Int :=
  match cs with
  | '0' :: 'x' :: rest => (ungroup? isHexDigit rest).map fun ds => (valueIn 16 ds : Int)
  | '0' :: 'o' :: rest => (ungroup? isOctalDigit rest).map fun ds => (valueIn 8 ds : Int)
  | '0' :: 'b' :: rest => (ungroup? isBinaryDigit rest).map fun ds => (valueIn 2 ds : Int)
  | _ =>
    let (negative, rest) := signed cs
    (whole? rest).map fun ds => if negative then -(valueIn 10 ds : Int) else valueIn 10 ds

/-- whether each underscore stands between two digits of base sixteen; the flag says it of what is before the text -/
def isGroupedText : Bool → List Char → Bool
  | _, [] => true
  | digit, '_' :: rest => digit && rest.head?.any isHexDigit && isGroupedText false rest
  | _, c :: rest => isGroupedText (isHexDigit c) rest

/-- whether a text has the form of a decimal integer at its start and the form of no other number -/
def isMixed (cs : List Char) : Bool :=
  let (_, rest) := signed cs
  let behind := rest.dropWhile Char.isDigit
  rest.head?.any (fun c => c.isDigit && c != '0') && behind.head? == some '_' &&
    !behind.any (fun c => c == '.' || c == 'e' || c == 'E') && isGroupedText true behind

def isGrouped (c : Char) : Bool :=
  c.isDigit || c == '_'

/-- an exponent, behind its letter -/
def exponent? (cs : List Char) : Option Int :=
  let (negative, rest) := signed cs
  (ungroup? Char.isDigit rest).map fun ds => if negative then -(valueIn 10 ds : Int) else valueIn 10 ds

def exponentPart? : List Char → Option Int
  | [] => some 0
  | 'e' :: rest => exponent? rest
  | 'E' :: rest => exponent? rest
  | _ => none

/-- the value closest to a decimal -/
def ofDecimal (negative : Bool) (coefficient : Nat) (exponent : Int) : Value :=
  let x := Number.ofDecimal negative coefficient exponent
  if x.isFinite then .float x else .unreadable

/-- digits with a fraction, an exponent or both -/
def decimal? (negative : Bool) (cs : List Char) : Option Value := do
  let whole ← whole? (cs.takeWhile isGrouped)
  match cs.dropWhile isGrouped with
  | '.' :: rest =>
    let fraction ← ungroup? Char.isDigit (rest.takeWhile isGrouped)
    let exponent ← exponentPart? (rest.dropWhile isGrouped)
    some (ofDecimal negative (valueIn 10 (whole ++ fraction)) (exponent - fraction.length))
  | [] => none
  | rest =>
    let exponent ← exponentPart? rest
    some (ofDecimal negative (valueIn 10 whole) exponent)

/-- a decimal, an infinity or NaN, perhaps behind a sign -/
def float? (cs : List Char) : Option Value :=
  let (negative, rest) := signed cs
  if rest = "inf".toList then some (.float (.infinite negative))
  else if rest = "nan".toList then some (.float .nan)
  else decimal? negative rest

/-- the value of an unquoted text -/
def ofChars? (cs : List Char) : Option Value :=
  if cs = "true".toList then some (.bool true)
  else if cs = "false".toList then some (.bool false)
  else
    ((integer? cs).map Value.integer).or
      ((float? cs).or
        (((Datetime.ofChars? cs).map fun text => .datetime (String.ofList text)).or
          (if isMixed cs then some .unreadable else none)))

end Scalar

end BlockTemplates.Toml
