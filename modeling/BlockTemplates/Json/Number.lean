/-
JSON numbers.

A number without a fraction and an exponent is an integer if 64 bits hold it. Any other number is read in two
roundings: its digits give a number of 64 bits, digits beyond these are dropped or counted, and this number is
multiplied or divided by a power of ten, each rounded to the nearest magnitude.
-/
import BlockTemplates.Json.Fault

namespace BlockTemplates.Json

/-- a number as it is written -/
inductive Numeral where
  | integer (i : Int)
  | float (x : Number)
  deriving DecidableEq

namespace Numeral

def toNumber : Numeral → Number
  | integer i => Number.ofInt i
  | float x => x

/-- the number as messages name it -/
def found : Numeral → Found
  | integer i => .integer i
  | float x => .float x

/-- the magnitude of a power of ten -/
def power (k : Nat) : Nat :=
  Magnitude.nearest (Nat.pow 10 k) 1

/-- a magnitude divided by `10 ^ k`, by the greatest finite power at a time -/
def shrink (step k : Nat) : Nat :=
  if k ≤ 308 then Magnitude.div step (power k)
  else if step = 0 then 0
  else shrink (Magnitude.div step (power 308)) (k - 308)
termination_by k

/-- the magnitude of `significand * 10 ^ exponent`, if it is finite -/
def scale? (significand : Nat) (exponent : Int) : Option Nat :=
  let step := Magnitude.nearest significand 1
  if exponent < 0 then some (shrink step exponent.natAbs)
  else if exponent ≤ 308 then
    let product := Magnitude.mul step (power exponent.toNat)
    if product < Magnitude.finiteSteps then some product else none
  else if step = 0 then some 0
  else none

/-- the float with a sign, read up to `rest` -/
def float? (negative : Bool) (significand : Nat) (exponent : Int) (rest : List Char) :
    Except Fault (Numeral × List Char) :=
  match scale? significand exponent with
  | some step => .ok (float (Number.ofStep negative step), rest)
  | none => .error (.before .numberOutOfRange rest)

/-- the digits at the front of a text, as far as the number they give after `n` stays below `bound`: the number, how
many digits it took, and the rest -/
def takeDigits (bound : Nat) : Nat → List Char → Nat × Nat × List Char
  | n, [] => (n, 0, [])
  | n, c :: cs =>
    if c.isDigit && n * 10 + (c.toNat - 48) < bound then
      let (m, count, rest) := takeDigits bound (n * 10 + (c.toNat - 48)) cs
      (m, count + 1, rest)
    else (n, 0, c :: cs)

/-- numbers below this have 64 bits -/
def wordBound : Nat :=
  Nat.pow 2 64

/-- exponents below this have 31 bits -/
def exponentBound : Nat :=
  Nat.pow 2 31

def startsWithDigit : List Char → Bool
  | c :: _ => c.isDigit
  | [] => false

/-- an exponent, behind its letter -/
def exponent (negative : Bool) (significand : Nat) (base : Int) (cs : List Char) :
    Except Fault (Numeral × List Char) :=
  let (negativeExponent, digits) :=
    match cs with
    | '+' :: rest => (false, rest)
    | '-' :: rest => (true, rest)
    | _ => (false, cs)
  if digits.isEmpty then .error (.before .eofInValue [])
  else if !startsWithDigit digits then .error (.inside .invalidNumber digits)
  else
    let (e, _, rest) := takeDigits exponentBound 0 digits
    if startsWithDigit rest then
      if significand ≠ 0 ∧ !negativeExponent then .error (.inside .numberOutOfRange rest)
      else .ok (float (Number.ofStep negative 0), rest.dropWhile Char.isDigit)
    else float? negative significand (if negativeExponent then base - e else base + e) rest

/-- what follows the digits of a number that is no integer: perhaps an exponent -/
def afterDigits (negative : Bool) (significand : Nat) (base : Int) (cs : List Char) :
    Except Fault (Numeral × List Char) :=
  match cs with
  | 'e' :: rest => exponent negative significand base rest
  | 'E' :: rest => exponent negative significand base rest
  | _ => float? negative significand base cs

/-- a fraction, behind its point -/
def fraction (negative : Bool) (significand : Nat) (base : Int) (cs : List Char) :
    Except Fault (Numeral × List Char) :=
  if !startsWithDigit cs then
    if cs.isEmpty then .error (.before .eofInValue []) else .error (.inside .invalidNumber cs)
  else
    let (n, count, rest) := takeDigits wordBound significand cs
    afterDigits negative n (base - count) (rest.dropWhile Char.isDigit)

/-- what follows the digits of an integer -/
def afterInteger (negative : Bool) (n : Nat) (cs : List Char) : Except Fault (Numeral × List Char) :=
  match cs with
  | '.' :: rest => fraction negative n 0 rest
  | 'e' :: rest => exponent negative n 0 rest
  | 'E' :: rest => exponent negative n 0 rest
  | _ =>
    if !negative then .ok (integer n, cs)
    else if 0 < n ∧ n ≤ Nat.pow 2 63 then .ok (integer (-n), cs)
    else .ok (float (Number.ofStep true (Magnitude.nearest n 1)), cs)

/-- a number, behind its sign -/
def read (negative : Bool) (cs : List Char) : Except Fault (Numeral × List Char) :=
  match cs with
  | [] => .error (.before .eofInValue [])
  | '0' :: rest => if startsWithDigit rest then .error (.inside .invalidNumber rest) else afterInteger negative 0 rest
  | c :: _ =>
    if !c.isDigit then .error (.inside .invalidNumber cs)
    else
      let (n, _, rest) := takeDigits wordBound 0 cs
      let dropped := rest.takeWhile Char.isDigit
      if dropped.isEmpty then afterInteger negative n rest
      else
        match rest.dropWhile Char.isDigit with
        | '.' :: more => fraction negative n dropped.length more
        | more => afterDigits negative n dropped.length more

end Numeral

end BlockTemplates.Json
