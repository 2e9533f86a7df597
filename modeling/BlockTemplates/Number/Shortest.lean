/-
The shortest decimal text of a magnitude.

Every real strictly between the middles to the neighbouring steps rounds to a step, and so do the two middles when the
step is even. `shortest` searches the decimal grids for a point in that interval, from a grid whose first point is above
it all down to finer ones; the two grid points around the value are the only candidates. The first grid with a hit wins,
of two hits the one nearer to the value, and at equal distance the tie rule decides.
-/
import BlockTemplates.Number.Magnitude

namespace BlockTemplates

/-- `coefficient * 10 ^ exponent` -/
structure Decimal where
  coefficient : Nat
  exponent : Int
  deriving DecidableEq, Repr

/-- which of two equally good neighbours is taken -/
inductive Tie where
  | toEven
  | up
  deriving DecidableEq, Repr

namespace Decimal

/-- the decimal without the zeros at the end of its coefficient -/
def strip (d : Decimal) : Decimal :=
  go d.coefficient d.coefficient d.exponent
where
  go : Nat → Nat → Int → Decimal
    | 0, c, e => ⟨c, e⟩
    | fuel + 1, c, e => if c % 10 = 0 then go fuel (c / 10) (e + 1) else ⟨c, e⟩

end Decimal

namespace Magnitude

/-- all values and middles of steps are points of the grid `10 ^ -finest`, as halves of the unit 2^-1074 are -/
@[irreducible] def finest : Nat :=
  1075

/-- how many half units make one -/
def halves : Nat :=
  Nat.pow 2 finest

/-- the factor that makes lengths on the grid `10 ^ exponent` whole -/
def scale (exponent : Int) : Nat :=
  Nat.pow 10 (-exponent).toNat

/-- the distance of two points of the grid `10 ^ exponent`, in half units times `scale exponent` -/
def cell (exponent : Int) : Nat :=
  Nat.pow 10 exponent.toNat * halves

/-- whether point `c` of the grid `10 ^ exponent` rounds to a step -/
def isInside (step : Nat) (exponent : Int) (c : Nat) : Bool :=
  let low := (units (step - 1) + units step) * scale exponent
  let high := (units step + units (step + 1)) * scale exponent
  (low < c * cell exponent && c * cell exponent < high) ||
    (step % 2 == 0 && (c * cell exponent == low || c * cell exponent == high))

/-- of two neighbours on a grid the one nearer to a value; at equal distance the tie rule decides -/
def nearer (tie : Tie) (value cell below : Nat) : Nat :=
  let middle := (2 * below + 1) * cell
  if 2 * value < middle then below
  else if middle < 2 * value then below + 1
  else
    match tie with
    | .up => below + 1
    | .toEven => if below % 2 = 0 then below else below + 1

/-- the candidate of the grid `10 ^ exponent` for a step, if one of its points rounds to the step -/
def candidate? (tie : Tie) (step : Nat) (exponent : Int) : Option Nat :=
  let value := 2 * units step * scale exponent
  let below := value / cell exponent
  if isInside step exponent below then
    some (if isInside step exponent (below + 1) then nearer tie value (cell exponent) below else below)
  else if isInside step exponent (below + 1) then some (below + 1)
  else none

/-- the value of a step on the grid `10 ^ -finest` -/
def exact (step : Nat) : Nat :=
  2 * units step * Nat.pow 5 finest

/-- searches `fuel` grids for a candidate, from `10 ^ exponent` down; behind the last one `last` is taken -/
def search (candidate? : Int → Option Nat) (last : Nat) : Nat → Int → Decimal
  | 0, exponent => ⟨last, exponent⟩
  | fuel + 1, exponent =>
    match candidate? exponent with
    | some c => ⟨c, exponent⟩
    | none => search candidate? last fuel (exponent - 1)

/-- the exponent of a power of ten above every real that rounds to a step -/
def bound (step : Nat) : Nat :=
  (Nat.toDigits 10 (units step / Nat.pow 2 1074)).length + 1

/-- the decimal with the fewest digits that rounds to a step; the grid `10 ^ -1074` has a point for every step -/
def shortest (tie : Tie) (step : Nat) : Decimal :=
  if step = 0 then ⟨0, 0⟩ else (search (candidate? tie step) (exact step) (bound step + finest) (bound step)).strip

end Magnitude

end BlockTemplates
