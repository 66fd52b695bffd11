import LadderChart.Number.Shortest

/-!
Number literals of JSON text, kept as they are written: sign, whole digits, digits after the point,
exponent. A literal is read as a double as the JSON library does without its exact reading, in two
steps, each of them rounded: as many leading digits as a word of 64 bits holds, then one scaling by
a power of ten. So not every literal gives the nearest double. Integers are read exactly.
-/

namespace LadderChart.Json

structure Literal where
  negative : Bool
  whole : List Digit
  /-- No digits here means that no point is written. -/
  fraction : List Digit
  exponent : Option (Bool × List Digit)
  deriving DecidableEq, Repr

namespace Literal

def ofNat (n : Nat) : Literal := ⟨false, Digits.ofNat n, [], none⟩

def ofInt (n : Int) : Literal := ⟨decide (n < 0), Digits.ofNat n.natAbs, [], none⟩

/-! ### Text -/

def renderFraction : List Digit → List Char
  | [] => []
  | digits => '.' :: Digits.text digits

def renderExponent : Option (Bool × List Digit) → List Char
  | none => []
  | some (negative, digits) => 'e' :: (if negative then '-' else '+') :: Digits.text digits

def render (l : Literal) : List Char :=
  (if l.negative then ['-'] else []) ++ Digits.text l.whole ++ renderFraction l.fraction
    ++ renderExponent l.exponent

/-- A whole part: digits that start with zero only if zero is all there is. -/
def scanWhole (text : List Char) : Option (List Digit × List Char) :=
  match Digits.scan text with
  | ([], _) => none
  | (0 :: _ :: _, _) => none
  | found => some found

def scanFraction : List Char → Option (List Digit × List Char)
  | '.' :: rest =>
      match Digits.scan rest with
      | ([], _) => none
      | found => some found
  | rest => some ([], rest)

def scanSign : List Char → Bool × List Char
  | '-' :: rest => (true, rest)
  | '+' :: rest => (false, rest)
  | rest => (false, rest)

def scanExponent : List Char → Option (Option (Bool × List Digit) × List Char)
  | [] => some (none, [])
  | mark :: rest =>
      if mark = 'e' ∨ mark = 'E' then
        let signed := scanSign rest
        match Digits.scan signed.2 with
        | ([], _) => none
        | (digits, rest) => some (some (signed.1, digits), rest)
      else some (none, mark :: rest)

/-- Reads a literal at the head of a text. A plus sign stands before an exponent only. -/
def scan (text : List Char) : Option (Literal × List Char) :=
  let signed : Bool × List Char := match text with
    | '-' :: rest => (true, rest)
    | rest => (false, rest)
  match scanWhole signed.2 with
  | none => none
  | some (whole, rest) =>
      match scanFraction rest with
      | none => none
      | some (fraction, rest) =>
          match scanExponent rest with
          | none => none
          | some (exponent, rest) => some (⟨signed.1, whole, fraction, exponent⟩, rest)

/-! ### Integers -/

/-- The integer that a literal spells, if it has neither point nor exponent. A negative zero is no
integer. -/
def integer? (l : Literal) : Option Int :=
  let size := Digits.value l.whole
  if l.fraction ≠ [] ∨ l.exponent ≠ none then none
  else if l.negative then (if size = 0 then none else some (-(size : Int)))
  else some size

/-! ### Doubles -/

def largestWord : Nat := Nat.pow 2 64 - 1

/-- Digits taken into a word while it holds them, and how many are left over. -/
def take : Nat → List Digit → Nat × List Digit
  | word, [] => (word, [])
  | word, d :: rest =>
      if 10 * word + d.val ≤ largestWord then take (10 * word + d.val) rest
      else (word, d :: rest)

def powerOfTen (n : Nat) : Float := Float.ofScientific 1 false n

/-- Scales by a power of ten. Beyond `10 ^ 308` there is no double to multiply by; numbers that
small are brought down in steps, and three steps take any word to zero. -/
def scale : Nat → Float → Int → Option Float
  | steps, x, exponent =>
      if exponent.natAbs ≤ 308 then
        if 0 ≤ exponent then
          let scaled := x * powerOfTen exponent.natAbs
          if scaled.isInf then none else some scaled
        else some (x / powerOfTen exponent.natAbs)
      else if x == 0.0 then some x
      else if 0 ≤ exponent then none
      else match steps with
        | 0 => some 0.0
        | steps + 1 => scale steps (x / powerOfTen 308) (exponent + 308)

def exponentValue : Option (Bool × List Digit) → Int
  | none => 0
  | some (negative, digits) =>
      let size : Int := Digits.value digits
      if negative then -size else size

def size? (l : Literal) : Option Float :=
  let whole := take 0 l.whole
  let fraction := take whole.1 l.fraction
  -- digits left over before the point raise the exponent, digits taken after it lower it
  let exponent := (whole.2.length : Int) - (l.fraction.length - fraction.2.length : Nat)
    + exponentValue l.exponent
  scale 3 (Float.ofNat fraction.1) exponent

def double? (l : Literal) : Option Float :=
  (size? l).map fun x => if l.negative then -x else x

/-! ### Writing doubles -/

/-- Between `10 ^ (-5)` and `10 ^ 16` a number is written out, with one place at least; outside
it has one whole digit and an exponent. -/
def ofDecimal (negative : Bool) (d : Decimal) : Literal :=
  let exponent := d.point - 1
  if -5 ≤ exponent ∧ exponent ≤ 15 then
    if d.point ≤ 0 then ⟨negative, Digits.zeros 1, Digits.zeros (-d.point).toNat ++ d.digits, none⟩
    else
      let count := d.point.toNat
      if d.digits.length ≤ count then
        ⟨negative, d.digits ++ Digits.zeros (count - d.digits.length), Digits.zeros 1, none⟩
      else ⟨negative, d.digits.take count, d.digits.drop count, none⟩
  else
    ⟨negative, d.digits.take 1, d.digits.drop 1,
      some (decide (exponent < 0), Digits.ofNat exponent.natAbs)⟩

/-- The literal of a double; there is none for the values that are not finite. An exact tie
between two shortest candidates goes to the even digit. -/
def ofDouble? (x : Float) : Option Literal :=
  if x.isFinite then
    let d := Double.ofFloat x
    if d.significand = 0 then some ⟨d.negative, Digits.zeros 1, Digits.zeros 1, none⟩
    else some (ofDecimal d.negative (Decimal.shortest .even d))
  else none

end Literal
end LadderChart.Json
