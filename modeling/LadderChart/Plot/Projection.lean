import LadderChart.Plot.Box
import LadderChart.Plot.Scale

/-!
Between values and pixels: `value_to_pixel`, `pixel_to_value`, `column_pitch`. All ink is placed
through these functions, so that bands, cells and labels of one column stand at the same place.
-/

namespace LadderChart.Scale
variable {α : Type} [Scalar α]

/-- Where a value lies in a range, from zero to one; in a range without a span it is in the
middle. -/
def fraction (low high x : α) : α :=
  let span := high - low
  if 0.0 < span then (x - low) / span else 0.5

def place (axis : Axis) (box : Box α) (fraction : α) : α :=
  match axis with
  | .x => box.left + fraction * box.width
  | .y => box.top + (1.0 - fraction) * box.height

def pixel? (s : Scale α) (axis : Axis) (box : Box α) (x : α) : Option α :=
  match s.range with
  | none => none
  | some (low, high) =>
      if Scalar.isFinite x then some (place axis box (fraction low high x)) else none

def unplace (axis : Axis) (box : Box α) (pixel : α) : α :=
  match axis with
  | .x => (pixel - box.left) / box.width
  | .y => 1.0 - (pixel - box.top) / box.height

def value? (s : Scale α) (axis : Axis) (box : Box α) (pixel : α) : Option α :=
  match s.range with
  | none => none
  | some (low, high) =>
      if Scalar.isFinite pixel then
        let span := high - low
        -- a range without a span has one value only
        if span ≤ 0.0 then some low else some (low + unplace axis box pixel * span)
      else none

def domainValue? (d : Distribution) (index : Nat) (series : List α) : Option α :=
  match d with
  | .ordinal => some (Scalar.ofNat index)
  | .linear => series[index]?

/-- The distance between the centres of neighbouring columns. A single column has the whole
width. -/
def pitch (w : Window) (box : Box α) : α := box.width / Scalar.ofNat (max w.span 1)

end LadderChart.Scale
