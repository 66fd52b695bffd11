import LadderChart.Number.Digits
import LadderChart.Number.Rounding

/-!
The numbers a chart is computed with. Everything below the engine is written once over `Scalar`:
double precision numbers run the program, rational numbers read the same formulas exactly.

A scalar may be a real number or one of the values that stand outside (not a number, the
infinities); `isFinite` tells them apart and `value` is the exact value of a finite scalar.
-/

namespace LadderChart

class Scalar (α : Type) extends Add α, Sub α, Mul α, Div α, LT α, LE α, BEq α, OfScientific α where
  decidableLT : DecidableLT α
  decidableLE : DecidableLE α
  ofNat : Nat → α
  isFinite : α → Bool
  /-- The exact value of a finite scalar. -/
  value : α → Rat
  /-- Plain decimal text, never with an exponent. -/
  plain : α → String
  /-- Text with a set number of places, from the exact value; a half goes to the even digit. -/
  fixed : Nat → α → String
  /-- Places after the point down to the first digit that counts, for sizes below one. -/
  places : α → Nat

attribute [reducible, instance] Scalar.decidableLT Scalar.decidableLE

namespace Scalar
variable {α : Type} [Scalar α]

def isNaN (x : α) : Bool := !(x == x)

/-- The smaller of two, the first if they are equal; a value that is no number gives way. With `upper`
it is the same for the larger. -/
def lower (x y : α) : α := if y < x then y else if isNaN x then y else x

def upper (x y : α) : α := if x < y then y else if isNaN x then y else x

def clamp (low high x : α) : α := if x < low then low else if high < x then high else x

def magnitude (x : α) : α := if x < 0.0 then 0.0 - x else x

/-- Indices and lengths are counted in words of 64 bits; the largest of them. -/
def largestIndex : Nat := Nat.pow 2 64 - 1

def nearest (x : α) : Int := Rounding.awayFromZero (value x)

/-- Keeps a whole number inside `0 .. limit`; what is beyond goes to the nearer end. -/
def saturate (limit : Nat) (x : α) (whole : Rat → Int) : Nat :=
  if isFinite x then min (whole (value x)).toNat limit
  else if (0.0 : α) < x then limit else 0

def nearestIndex (x : α) : Nat := saturate largestIndex x Rounding.awayFromZero

def wholeUnits (x : α) : Nat := saturate largestIndex x Rat.floor

def nearestByte (x : α) : Nat := saturate 255 x Rounding.awayFromZero

/-- Orders for a search: a value that is no number comes after all others. -/
def before (x y : α) : Bool := decide (x < y) || (isNaN y && !isNaN x)

end Scalar

namespace Fraction

def pointed (n places : Nat) : List Char :=
  let digits := Digits.ofNat n
  let padded := Digits.zeros (places + 1 - digits.length) ++ digits
  let whole := padded.take (padded.length - places)
  let rest := padded.drop (padded.length - places)
  Digits.text whole ++ (if places = 0 then [] else '.' :: Digits.text rest)

def fixedText (q : Rat) (places : Nat) : List Char :=
  pointed (Rounding.halfEven (q.num.natAbs * Nat.pow 10 places) q.den) places

def leadingPlaces (q : Rat) : Nat := Digits.count ((q.den - 1) / q.num.natAbs)

def sign (negative : Bool) (text : List Char) : List Char := if negative then '-' :: text else text

end Fraction

instance : Scalar Rat where
  decidableLT := inferInstance
  decidableLE := inferInstance
  ofNat n := (n : Rat)
  isFinite _ := true
  value q := q
  plain q :=
    let whole := Fraction.sign (q.num < 0) (Digits.text (Digits.ofNat q.num.natAbs))
    String.ofList (if q.den = 1 then whole else whole ++ '/' :: Digits.text (Digits.ofNat q.den))
  fixed places q := String.ofList (Fraction.sign (q.num < 0) (Fraction.fixedText q places))
  places := Fraction.leadingPlaces

end LadderChart
