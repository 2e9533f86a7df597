/-
How numbers are written.

The digits are the fewest that read back as the number. A `Layout` holds what a format decides: which exponents are
written positionally, whether a whole number keeps a fraction, and the tie rule of the digits. `Layout.plain` writes
slot values into bodies, `Layout.canonical` writes JSON.
-/
import BlockTemplates.Number.Basic
import BlockTemplates.Number.Shortest

namespace BlockTemplates

/-- the decisions of a number format -/
structure Layout where
  /-- the leading digits' exponents that are written without an exponent -/
  positional : Int → Bool
  /-- whether a whole number ends in `.0` -/
  wholeFraction : Bool
  tie : Tie

namespace Layout

/-- never an exponent; of two equally near digit strings the greater one -/
def plain : Layout where
  positional _ := true
  wholeFraction := false
  tie := .up

/-- positional from `10 ^ -5` up to `10 ^ 16`; of two equally near digit strings the even one -/
def canonical : Layout where
  positional e := decide (-5 ≤ e ∧ e < 16)
  wholeFraction := true
  tie := .toEven

end Layout

namespace Decimal

def digits (d : Decimal) : List Char :=
  Nat.toDigits 10 d.coefficient

def leadExponent (d : Decimal) : Int :=
  d.exponent + d.digits.length - 1

/-- digits with the point in its place -/
def positional (wholeFraction : Bool) (d : Decimal) : List Char :=
  if 0 ≤ d.exponent then
    d.digits ++ List.replicate d.exponent.toNat '0' ++ (if wholeFraction then ['.', '0'] else [])
  else if 0 ≤ d.leadExponent then
    let whole := (d.leadExponent + 1).toNat
    d.digits.take whole ++ '.' :: d.digits.drop whole
  else
    '0' :: '.' :: (List.replicate (-d.leadExponent - 1).toNat '0' ++ d.digits)

/-- one digit, the others behind a point, and the exponent with its sign -/
def scientific (d : Decimal) : List Char :=
  let mantissa :=
    match d.digits with
    | [digit] => [digit]
    | digit :: more => digit :: '.' :: more
    | [] => []
  mantissa ++ 'e' :: (if d.leadExponent < 0 then '-' else '+') :: Nat.toDigits 10 d.leadExponent.natAbs

def chars (layout : Layout) (d : Decimal) : List Char :=
  if layout.positional d.leadExponent then d.positional layout.wholeFraction else d.scientific

end Decimal

namespace Number

def chars (layout : Layout) : Number → List Char
  | nan => "NaN".toList
  | infinite negative => (if negative then ['-'] else []) ++ "inf".toList
  | finite negative step =>
    (if negative then ['-'] else []) ++ (Magnitude.shortest layout.tie step).chars layout

/-- the text of a number among other text -/
def display (x : Number) : String :=
  String.ofList (x.chars Layout.plain)

end Number

end BlockTemplates
