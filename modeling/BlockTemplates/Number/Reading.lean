/-
Numbers from decimal text, rounded once.
-/
import BlockTemplates.Number.Basic

namespace BlockTemplates.Number

def digitsValue (digits : List Char) : Nat :=
  Nat.ofDigitChars 10 digits 0

/-- an exponent: digits, perhaps behind a sign -/
def exponent? (cs : List Char) : Option Int :=
  let (negative, digits) :=
    match cs with
    | '-' :: rest => (true, rest)
    | '+' :: rest => (false, rest)
    | _ => (false, cs)
  if digits.isEmpty || !digits.all Char.isDigit then none
  else some (if negative then -(digitsValue digits : Int) else digitsValue digits)

/-- the number closest to an unsigned decimal: digits, perhaps a point and more digits, perhaps an exponent -/
def ofUnsigned? (negative : Bool) (cs : List Char) : Option Number := do
  let whole := cs.takeWhile Char.isDigit
  let (fraction, rest) :=
    match cs.dropWhile Char.isDigit with
    | '.' :: more => (more.takeWhile Char.isDigit, more.dropWhile Char.isDigit)
    | more => ([], more)
  let exponent ←
    match rest with
    | [] => some 0
    | 'e' :: more => exponent? more
    | 'E' :: more => exponent? more
    | _ => none
  if whole.isEmpty && fraction.isEmpty then none
  else some (ofDecimal negative (digitsValue (whole ++ fraction)) (exponent - fraction.length))

/-- the number closest to a decimal with an optional sign -/
def ofText? (cs : List Char) : Option Number :=
  match cs with
  | '-' :: rest => ofUnsigned? true rest
  | '+' :: rest => ofUnsigned? false rest
  | _ => ofUnsigned? false cs

end BlockTemplates.Number
