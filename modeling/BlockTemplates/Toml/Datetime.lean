/-
Dates and times of TOML.

A date, a time, or a date and a time with `T` or one blank between them and perhaps an offset. Seconds may be missing,
and only behind seconds a fraction may stand. The normal form writes `T` and `Z` as capitals and cuts the fraction to
nine digits without zeros at the end, but keeps one digit.
-/
import BlockTemplates.Number.Reading

namespace BlockTemplates.Toml

namespace Datetime

/-- two digits with a value of at most `most` at the front of a text -/
def two? (most : Nat) : List Char → Option (List Char × List Char)
  | a :: b :: rest =>
    if a.isDigit && b.isDigit && Number.digitsValue [a, b] ≤ most then some ([a, b], rest) else none
  | _ => none

/-- one particular character at the front of a text -/
def expect (c : Char) : List Char → Option (List Char)
  | d :: rest => if d = c then some rest else none
  | [] => none

def isLeap (year : Nat) : Bool :=
  year % 4 == 0 && (year % 100 != 0 || year % 400 == 0)

def daysIn (year month : Nat) : Nat :=
  if month = 2 then (if isLeap year then 29 else 28)
  else if month = 4 ∨ month = 6 ∨ month = 9 ∨ month = 11 then 30
  else 31

/-- a date: four, two and two digits with hyphens between them -/
def date? (cs : List Char) : Option (List Char × List Char) := do
  let year := cs.take 4
  if year.length ≠ 4 || !year.all Char.isDigit then none
  let rest ← expect '-' (cs.drop 4)
  let (month, rest) ← two? 12 rest
  let rest ← expect '-' rest
  let (day, rest) ← two? 31 rest
  let m := Number.digitsValue month
  let d := Number.digitsValue day
  if m = 0 || d = 0 || daysIn (Number.digitsValue year) m < d then none
  else some (year ++ '-' :: month ++ '-' :: day, rest)

/-- the digits of a fraction in normal form -/
def fraction (digits : List Char) : List Char :=
  match ((digits.take 9).reverse.dropWhile (· == '0')).reverse with
  | [] => ['0']
  | kept => kept

/-- a time: hours and minutes, perhaps seconds, perhaps a fraction -/
def time? (cs : List Char) : Option (List Char × List Char) := do
  let (hour, rest) ← two? 23 cs
  let rest ← expect ':' rest
  let (minute, rest) ← two? 59 rest
  match rest with
  | ':' :: rest =>
    let (second, rest) ← two? 60 rest
    let whole := hour ++ ':' :: minute ++ ':' :: second
    match rest with
    | '.' :: rest =>
      let digits := rest.takeWhile Char.isDigit
      if digits.isEmpty then none else some (whole ++ '.' :: fraction digits, rest.dropWhile Char.isDigit)
    | _ => some (whole, rest)
  | _ => some (hour ++ ':' :: minute, rest)

/-- an offset from universal time; no offset at all has a plus sign -/
def offset? : List Char → Option (List Char)
  | [] => some []
  | ['Z'] => some ['Z']
  | ['z'] => some ['Z']
  | sign :: rest => do
    if sign ≠ '+' ∧ sign ≠ '-' then none
    let (hour, rest) ← two? 23 rest
    let rest ← expect ':' rest
    let (minute, rest) ← two? 59 rest
    if !rest.isEmpty then none
    let zero := Number.digitsValue (hour ++ minute) == 0
    some ((if zero then '+' else sign) :: hour ++ ':' :: minute)

/-- a date, a time or both, in normal form -/
def ofChars? (cs : List Char) : Option (List Char) :=
  match date? cs with
  | some (date, []) => some date
  | some (date, separator :: rest) =>
    if separator = 'T' ∨ separator = 't' ∨ separator = ' ' then do
      let (time, rest) ← time? rest
      let offset ← offset? rest
      some (date ++ 'T' :: time ++ offset)
    else none
  | none =>
    match time? cs with
    | some (time, []) => some time
    | _ => none

/-- whether a text is a date and nothing else -/
def isDate (cs : List Char) : Bool :=
  match date? cs with
  | some (_, []) => true
  | _ => false

end Datetime

end BlockTemplates.Toml
