/-
Numbers of the binary64 format.

A number is not a number, an infinity, or a sign and one of the finite magnitudes. Zero has both signs, and
`Number.same` counts them as equal, as it counts no NaN equal to anything.
-/
import BlockTemplates.Number.Magnitude

namespace BlockTemplates

/-- a number of the binary64 format -/
inductive Number where
  | nan
  | infinite (negative : Bool)
  | finite (negative : Bool) (step : Fin Magnitude.finiteSteps)
  deriving DecidableEq

namespace Number

/-- the number with a sign and a step; the steps behind the finite ones are infinity -/
def ofStep (negative : Bool) (step : Nat) : Number :=
  if h : step < Magnitude.finiteSteps then finite negative ⟨step, h⟩ else infinite negative

/-- the number closest to `coefficient * 10 ^ exponent` -/
def ofDecimal (negative : Bool) (coefficient : Nat) (exponent : Int) : Number :=
  ofStep negative (Magnitude.nearestDecimal coefficient exponent)

/-- the number closest to an integer -/
def ofInt (i : Int) : Number :=
  ofStep (decide (i < 0)) (Magnitude.nearest i.natAbs 1)

def isFinite : Number → Bool
  | finite _ _ => true
  | _ => false

/-- equality of the numbers that are meant: the zeros are equal, NaN equals nothing -/
def same : Number → Number → Bool
  | nan, _ => false
  | _, nan => false
  | infinite a, infinite b => a == b
  | finite a m, finite b n => m == n && (a == b || m.val == 0)
  | _, _ => false

end Number

end BlockTemplates
