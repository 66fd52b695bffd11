import LadderChart.Data.ColorRange
import LadderChart.Ink.Color

/-!
The heat of a weight, `heat_intensity` and `heat_blue_channel`: its share of the top of the colour
range, shown as the blue channel of a cell.
-/

namespace LadderChart.Heat
variable {α : Type} [Scalar α]

/-- From zero to one. Without a positive top there is no heat. -/
def intensity (weight : α) (range : ColorRange α) : α :=
  if range.high ≤ 0.0 ∨ ¬ Scalar.isFinite weight then 0.0
  else Scalar.clamp 0.0 1.0 (weight / range.high)

def blueByte (weight : α) (range : ColorRange α) : Nat :=
  Scalar.nearestByte (255.0 * intensity weight range)

def fill (weight : α) (range : ColorRange α) : Color α :=
  .ofBytes 50 50 (blueByte weight range) 0.5

end LadderChart.Heat
