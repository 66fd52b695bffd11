/-!
A double precision number taken apart. A finite one is a sign, a significand below `2 ^ 53` and an
exponent, and its exact value is `significand * 2 ^ exponent`; the subnormal numbers share the
smallest exponent.
-/

namespace LadderChart

structure Double where
  negative : Bool
  significand : Nat
  exponent : Int
  deriving DecidableEq, Repr

namespace Double

/-- The parts of a finite number, read off its 64 bits: one of sign, eleven of exponent, 52 of
fraction. Normal numbers have a leading one that is not stored. -/
def ofFloat (x : Float) : Double :=
  let bits := x.toBits.toNat
  let field := bits / Nat.pow 2 52 % Nat.pow 2 11
  let fraction := bits % Nat.pow 2 52
  { negative := decide (Nat.pow 2 63 ≤ bits)
    significand := if field = 0 then fraction else Nat.pow 2 52 + fraction
    exponent := (max field 1 : Nat) - 1075 }

def numerator (d : Double) : Nat := d.significand * Nat.pow 2 d.exponent.toNat

def denominator (d : Double) : Nat := Nat.pow 2 (-d.exponent).toNat

def size (d : Double) : Rat := mkRat d.numerator d.denominator

def value (d : Double) : Rat := if d.negative then -d.size else d.size

/-- The number is at the foot of its binade: the next smaller one is half as far away as the next
larger one. -/
def footOfBinade (d : Double) : Bool := d.significand == Nat.pow 2 52 && decide (-1074 < d.exponent)

end Double
end LadderChart
