import LadderChart.Fault
import LadderChart.Json.Fields
import LadderChart.Number.Plain

/-!
The bounds against which weights are measured when they become heat.
-/

namespace LadderChart

structure ColorRange (α : Type) where
  low : α
  high : α
  deriving DecidableEq

namespace ColorRange
variable {α : Type} [Scalar α]

def zero : ColorRange α := ⟨0.0, 0.0⟩

def check (r : ColorRange α) : Check :=
  if ¬ (Scalar.isFinite r.low ∧ Scalar.isFinite r.high) then .error (.data .colorRangeInfinite)
  else if r.high < r.low then
    .error (.data (.colorRangeInverted (Scalar.plain r.low) (Scalar.plain r.high)))
  else .ok ()

def make (low high : α) : Except Fault (ColorRange α) := do
  check ⟨low, high⟩
  return ⟨low, high⟩

end ColorRange

namespace ColorRange

def toJson (r : ColorRange Float) : Json :=
  .record [("min", .double r.low), ("max", .double r.high)]

def ofJson? (j : Json) : Option (ColorRange Float) := do
  let fields ← j.fields? ["min", "max"]
  let low ← fields.required "min" Json.double?
  let high ← fields.required "max" Json.double?
  (make low high).toOption

end ColorRange
end LadderChart
