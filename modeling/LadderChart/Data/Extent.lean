import LadderChart.Number.Scalar

/-!
The smallest and the largest of some values. Values that are no number are passed over; of equal
values the first is kept.
-/

namespace LadderChart.Extent
variable {α : Type} [Scalar α]

def widen : Option (α × α) → α → Option (α × α)
  | none, x => if Scalar.isNaN x then none else some (x, x)
  | some (low, high), x => some (Scalar.lower low x, Scalar.upper high x)

def of (values : List α) : Option (α × α) := values.foldl widen none

/-- A range that can serve as an axis: finite bounds in order. -/
def proper : Option (α × α) → Option (α × α)
  | some (low, high) =>
      if Scalar.isFinite low ∧ Scalar.isFinite high ∧ ¬ high < low then some (low, high) else none
  | none => none

end LadderChart.Extent
