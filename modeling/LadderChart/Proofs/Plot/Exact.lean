import LadderChart.Plot.Projection
import LadderChart.Proofs.Data.Extent
import LadderChart.Proofs.Number.Round

/-!
Projection without rounding. In a box that has a size, a place and its fraction determine each
other, and so do a value and its fraction in a range that has a span. On the horizontal axis a value
that is nearer to the value at a pixel is drawn nearer to that pixel, and the value at the pixel of
a value is that value again. A range without a span draws everything in the middle.
-/

namespace LadderChart

def Box.size {α : Type} (box : Box α) : Axis → α
  | .x => box.width
  | .y => box.height

namespace Scale

section Projection
variable {low high : Rat} (d : Distribution) (box : Box Rat)

theorem fraction_span (spans : low < high) (x : Rat) :
    fraction low high x = (x - low) / (high - low) := by
  have positive : (0.0 : Rat) < high - low := by norm_num; exact spans
  simp only [fraction, if_pos positive]

theorem value_fraction (spans : low < high) (x : Rat) :
    low + fraction low high x * (high - low) = x := by
  rw [fraction_span spans, div_mul_cancel₀ _ (sub_pos.mpr spans).ne', add_sub_cancel]

theorem fraction_value (spans : low < high) (share : Rat) :
    fraction low high (low + share * (high - low)) = share := by
  rw [fraction_span spans, add_sub_cancel_left, mul_div_cancel_right₀ _ (sub_pos.mpr spans).ne']

theorem place_unplace (axis : Axis) (sized : 0 < box.size axis) (pixel : Rat) :
    place axis box (unplace axis box pixel) = pixel := by
  cases axis with
  | x =>
      have wide : box.width ≠ 0 := sized.ne'
      simp only [place, unplace]
      rw [div_mul_cancel₀ _ wide, add_sub_cancel]
  | y =>
      have tall : box.height ≠ 0 := sized.ne'
      simp only [place, unplace, Scalar.one_rat]
      rw [sub_sub_cancel, div_mul_cancel₀ _ tall, add_sub_cancel]

theorem unplace_place (axis : Axis) (sized : 0 < box.size axis) (share : Rat) :
    unplace axis box (place axis box share) = share := by
  cases axis with
  | x =>
      have wide : box.width ≠ 0 := sized.ne'
      simp only [place, unplace]
      rw [add_sub_cancel_left, mul_div_cancel_right₀ _ wide]
  | y =>
      have tall : box.height ≠ 0 := sized.ne'
      simp only [place, unplace, Scalar.one_rat]
      rw [add_sub_cancel_left, mul_div_cancel_right₀ _ tall, sub_sub_cancel]

theorem pixel_along (axis : Axis) (low high x : Rat) :
    (⟨d, some (low, high)⟩ : Scale Rat).pixel? axis box x =
      some (place axis box (fraction low high x)) := by
  simp only [pixel?, Scalar.isFinite_rat, if_true]

theorem value_along (axis : Axis) (spans : low < high) (pixel : Rat) :
    (⟨d, some (low, high)⟩ : Scale Rat).value? axis box pixel =
      some (low + unplace axis box pixel * (high - low)) := by
  have positive : ¬ high - low ≤ (0.0 : Rat) := by norm_num; exact spans
  simp only [value?, Scalar.isFinite_rat, if_true, if_neg positive]

theorem value_span (spans : low < high) (pixel : Rat) :
    (⟨d, some (low, high)⟩ : Scale Rat).value? .x box pixel =
      some (low + (pixel - box.left) / box.width * (high - low)) :=
  value_along d box .x spans pixel

/-- Distances on the canvas are distances of values at the scale of the axis. -/
theorem pixel_distance (spans : low < high) (wide : 0 < box.width) (x pixel : Rat) :
    |box.left + fraction low high x * box.width - pixel| =
      |x - (low + (pixel - box.left) / box.width * (high - low))| *
        (box.width / (high - low)) := by
  have span : 0 < high - low := sub_pos.mpr spans
  rw [fraction_span spans, ← abs_of_pos (div_pos wide span), ← abs_mul]
  congr 1
  field_simp
  ring

theorem nearer_drawn (order : low ≤ high) (wide : 0 < box.width) {pixel value x y : Rat}
    (reads : (⟨d, some (low, high)⟩ : Scale Rat).value? .x box pixel = some value)
    (nearer : |x - value| ≤ |y - value|) :
    |box.left + fraction low high x * box.width - pixel| ≤
      |box.left + fraction low high y * box.width - pixel| := by
  rcases order.lt_or_eq with spans | same
  · rw [value_span d box spans, Option.some.injEq] at reads
    rw [pixel_distance box spans wide, pixel_distance box spans wide, reads]
    have scale : 0 ≤ box.width / (high - low) := (div_pos wide (sub_pos.mpr spans)).le
    exact mul_le_mul_of_nonneg_right nearer scale
  · have flat : ¬ (0.0 : Rat) < high - low := by norm_num [same]
    simp only [fraction, if_neg flat, le_refl]

/-- Reading off the value where a value was drawn gives the value again. -/
theorem value_drawn (spans : low < high) (wide : 0 < box.width) (x : Rat) :
    (⟨d, some (low, high)⟩ : Scale Rat).value? .x box
      (box.left + fraction low high x * box.width) = some x := by
  have read := unplace_place box .x wide (fraction low high x)
  simp only [place] at read
  rw [value_along d box .x spans, read, value_fraction spans]

/-- On the vertical axis the value that is read off at a pixel is drawn at that pixel. -/
theorem rung_drawn (spans : low < high) (tall : 0 < box.height) (pixel : Rat) :
    ∃ value, (⟨d, some (low, high)⟩ : Scale Rat).value? .y box pixel = some value ∧
      (⟨d, some (low, high)⟩ : Scale Rat).pixel? .y box value = some pixel ∧
      value = low + (box.bottom - pixel) / box.height * (high - low) := by
  refine ⟨_, value_along d box .y spans pixel, ?_, ?_⟩
  · rw [pixel_along, fraction_value spans, place_unplace box .y tall]
  · simp only [unplace, Scalar.one_rat, Box.bottom]
    field_simp
    ring

/-- Inside the plot such a value is inside the range. -/
theorem rung_between (spans : low < high) (tall : 0 < box.height) {pixel : Rat}
    (below : box.top ≤ pixel) (above : pixel ≤ box.bottom) :
    low ≤ low + (box.bottom - pixel) / box.height * (high - low) ∧
      low + (box.bottom - pixel) / box.height * (high - low) ≤ high := by
  have span : 0 < high - low := sub_pos.mpr spans
  have least : 0 ≤ (box.bottom - pixel) / box.height := div_nonneg (sub_nonneg.mpr above) tall.le
  have most : (box.bottom - pixel) / box.height ≤ 1 := by
    rw [div_le_one tall, Box.bottom]
    linarith
  constructor <;> nlinarith

end Projection
end Scale
end LadderChart
