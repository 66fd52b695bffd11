import LadderChart.Number.Digits
import LadderChart.Number.Double

/-!
The shortest decimal that reads back as a given double. The reals that round to a number form an
interval around it; its ends belong to it when the significand is even. Grids of 1, 2, … 17 digits
are tried in turn, and on each the two neighbours of the exact value. The first grid with a hit
wins, of two hits the nearer; what an exact tie does is up to the format.
-/

namespace LadderChart

/-- Digits `d₁d₂…dₙ` and a point: the number `0.d₁d₂…dₙ · 10 ^ point`. -/
structure Decimal where
  digits : List Digit
  point : Int
  deriving DecidableEq, Repr

namespace Decimal

def ofGrid (count : Nat) (unit : Int) : Decimal :=
  let digits := Digits.ofNat count
  ⟨Digits.dropTrailingZeros digits, digits.length + unit⟩

def exact (d : Double) : Decimal :=
  if 0 ≤ d.exponent then ofGrid d.numerator 0
  else ofGrid (d.significand * Nat.pow 5 (-d.exponent).toNat) d.exponent

end Decimal

inductive Tie where
  | up
  | even
  deriving DecidableEq, Repr

/-- The interval of reals that round to a number, as numerators over one denominator. -/
structure Basin where
  low : Nat
  centre : Nat
  high : Nat
  den : Nat
  closed : Bool

namespace Basin

def ofDouble (d : Double) : Basin :=
  -- quarters of the last place, so that half a place below the foot of a binade is whole
  let scale := Nat.pow 2 (d.exponent - 2).toNat
  { low := (4 * d.significand - if d.footOfBinade then 1 else 2) * scale
    centre := 4 * d.significand * scale
    high := (4 * d.significand + 2) * scale
    den := Nat.pow 2 (2 - d.exponent).toNat
    closed := d.significand % 2 == 0 }

def inUnits (b : Basin) (unit : Int) : Basin :=
  let up := Nat.pow 10 (-unit).toNat
  let down := Nat.pow 10 unit.toNat
  { b with low := b.low * up, centre := b.centre * up, high := b.high * up, den := b.den * down }

def holds (b : Basin) (count : Nat) : Bool :=
  if b.closed then decide (b.low ≤ count * b.den) && decide (count * b.den ≤ b.high)
  else decide (b.low < count * b.den) && decide (count * b.den < b.high)

/-- How many digits the whole part has; for a size below one, minus the number of zeros right
after the point. -/
def point (b : Basin) : Int :=
  if b.den ≤ b.centre then Digits.count (b.centre / b.den)
  else 1 - (Digits.count ((b.den - 1) / b.centre) : Nat)

def choose (tie : Tie) (b : Basin) : Option Nat :=
  let low := b.centre / b.den
  -- twice the distance from the lower neighbour, against the spacing
  let above := 2 * (b.centre % b.den)
  match b.holds low, b.holds (low + 1) with
  | true, true =>
      if above < b.den then some low
      else if b.den < above then some (low + 1)
      else match tie with
        | .up => some (low + 1)
        | .even => some (if low % 2 = 0 then low else low + 1)
  | true, false => some low
  | false, true => some (low + 1)
  | false, false => none

end Basin

namespace Decimal

def search (tie : Tie) (b : Basin) (point : Int) : List Nat → Option Decimal
  | [] => none
  | n :: rest =>
      match (b.inUnits (point - n)).choose tie with
      | some count => some (ofGrid count (point - n))
      | none => search tie b point rest

/-- Seventeen digits always suffice; the exact digits stand behind them so that the function is
total without that fact. -/
def shortest (tie : Tie) (d : Double) : Decimal :=
  let basin := Basin.ofDouble d
  (search tie basin basin.point (List.range' 1 17)).getD (exact d)

end Decimal
end LadderChart
