import LadderChart.Number.Scalar
import LadderChart.Number.Shortest

/-!
Plain text of double precision numbers, and the numbers as scalars of a chart. Plain text is that
of the runtime, positional at every size: the shortest digits that read back, an exact tie between
two of them going up, no exponent, no point in a whole number; zero keeps its sign. The logarithm
behind the number of places is taken to be rounded correctly, which a runtime need not do in the
last bit.
-/

namespace LadderChart

namespace Decimal

def positional (d : Decimal) : List Char :=
  if d.point ≤ 0 then '0' :: '.' :: Digits.text (Digits.zeros (-d.point).toNat ++ d.digits)
  else
    let whole := d.point.toNat
    if d.digits.length ≤ whole then Digits.text (d.digits ++ Digits.zeros (whole - d.digits.length))
    else Digits.text (d.digits.take whole) ++ '.' :: Digits.text (d.digits.drop whole)

end Decimal

namespace Double

def textWith (finite : Double → List Char) (x : Float) : String :=
  if x.isNaN then "NaN"
  else if x.isFinite then
    let d := ofFloat x
    String.ofList (Fraction.sign d.negative (finite d))
  else if x < 0.0 then "-inf" else "inf"

def plainText (x : Float) : String :=
  textWith (fun d => if d.significand = 0 then ['0'] else (Decimal.shortest .up d).positional) x

def fixedText (places : Nat) (x : Float) : String :=
  textWith (fun d => Fraction.fixedText d.size places) x

def logOfTen : Rat := mkRat 2302585092994046 (Nat.pow 10 15)

/-- By the natural logarithm of ten: whether the decimal logarithm of a size a little below `10 ^ (-places)` is `-places` when it is
rounded to a double: half the spacing of doubles around `places` is `2 ^ (log₂ places - 53)`. -/
def roundsToPower (size : Rat) (places : Nat) : Bool :=
  decide (1 - size * mkRat (Nat.pow 10 places) 1
    < logOfTen * mkRat (Nat.pow 2 places.log2) (Nat.pow 2 53))

/-- Places down to the first digit that counts, where a size next to a power of ten counts as that
power. -/
def leadingPlaces (x : Float) : Nat :=
  let size := (ofFloat x).size
  if x.isFinite ∧ size ≠ 0 then
    let exact := Fraction.leadingPlaces size
    if 2 ≤ exact ∧ roundsToPower size (exact - 1) then exact - 1 else exact
  else 0

end Double

instance : Scalar Float where
  decidableLT := inferInstance
  decidableLE := inferInstance
  ofNat := Float.ofNat
  isFinite := Float.isFinite
  value x := if x.isFinite then (Double.ofFloat x).value else 0
  plain := Double.plainText
  fixed := Double.fixedText
  places := Double.leadingPlaces

end LadderChart
