import LadderChart.Number.Digits

/-!
Decimal text read as the nearest double, by the grammar of the runtime: a sign, then `inf`,
`infinity` or `nan` in any case, or digits with at most one point and an exponent; one digit at
least stands beside the point.
-/

namespace LadderChart

inductive NumberFault where
  | empty
  | malformed
  deriving DecidableEq, Repr

def NumberFault.message : NumberFault → String
  | .empty => "cannot parse float from empty string"
  | .malformed => "invalid float literal"

namespace Reading

/-- The double nearest to `digits · 10 ^ exponent`. Far outside the range the answer is known
without the power: every double is below `10 ^ 310`, and half the smallest is above `10 ^ -330`. -/
def nearestDouble (digits : Nat) (exponent : Int) : Float :=
  let point := Digits.count digits + exponent
  if digits = 0 ∨ point < -330 then 0.0
  else if 310 < point then 1.0 / 0.0
  else if 0 ≤ exponent then Float.ofScientific digits false exponent.toNat
  else Float.ofScientific digits true (-exponent).toNat

def signed (negative : Bool) (x : Float) : Float := if negative then -x else x

def scanSign : List Char → Bool × List Char
  | '-' :: rest => (true, rest)
  | '+' :: rest => (false, rest)
  | rest => (false, rest)

/-- The exponent after the digits: nothing, or a mark, a sign and digits up to the end. -/
def exponent? : List Char → Option Int
  | [] => some 0
  | mark :: rest =>
      if mark = 'e' ∨ mark = 'E' then
        match scanSign rest with
        | (negative, rest) =>
            match Digits.scan rest with
            | (d :: more, []) =>
                let size : Int := Digits.value (d :: more)
                some (if negative then -size else size)
            | _ => none
      else none

def scanFraction : List Char → List Digit × List Char
  | '.' :: rest => Digits.scan rest
  | rest => ([], rest)

def unsigned? (text : List Char) : Option Float :=
  let whole := Digits.scan text
  let fraction := scanFraction whole.2
  let digits := whole.1 ++ fraction.1
  if digits.isEmpty then none
  else (exponent? fraction.2).map fun e =>
    nearestDouble (Digits.value digits) (e - fraction.1.length)

def named? (text : List Char) : Option Float :=
  let lower := text.map Char.toLower
  if lower = "inf".toList ∨ lower = "infinity".toList then some (1.0 / 0.0)
  else if lower = "nan".toList then some (0.0 / 0.0)
  else none

def double (text : String) : Except NumberFault Float :=
  if text.isEmpty then .error .empty
  else
    let body := scanSign text.toList
    match named? body.2 <|> unsigned? body.2 with
    | some x => .ok (signed body.1 x)
    | none => .error .malformed

end Reading
end LadderChart
