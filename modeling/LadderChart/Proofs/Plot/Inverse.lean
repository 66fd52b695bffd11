import LadderChart.Proofs.Plot.Exact

/-!
Values and pixels, one for one. A value goes through its fraction of the range to a place in the
box, and a pixel the same way back. Both steps keep the order along the axis, and the fractions
from zero to one are the values inside the range and the places inside the box.
-/

namespace LadderChart

/-- Further along the axis: to the right, or up. Pixels are counted downwards. -/
def Axis.Before : Axis → Rat → Rat → Prop
  | .x, p, q => p < q
  | .y, p, q => q < p

namespace Box
variable (box : Box Rat)

/-- The edge at which ranges start. -/
def foot : Axis → Rat
  | .x => box.left
  | .y => box.bottom

/-- The edge at which ranges end. -/
def head : Axis → Rat
  | .x => box.right
  | .y => box.top

def centre : Axis → Rat
  | .x => box.left + box.width / 2
  | .y => box.top + box.height / 2

def Covers : Axis → Rat → Prop
  | .x, p => box.left ≤ p ∧ p ≤ box.right
  | .y, p => box.top ≤ p ∧ p ≤ box.bottom

end Box

namespace Scale

section Steps
variable {low high : Rat} (box : Box Rat) (axis : Axis)

theorem fraction_lt (spans : low < high) {x y : Rat} (less : x < y) :
    fraction low high x < fraction low high y := by
  rw [fraction_span spans, fraction_span spans]
  exact div_lt_div_of_pos_right (sub_lt_sub_right less low) (sub_pos.mpr spans)

theorem fraction_inside (spans : low < high) (x : Rat) :
    (0 ≤ fraction low high x ∧ fraction low high x ≤ 1) ↔ (low ≤ x ∧ x ≤ high) := by
  have span : 0 < high - low := sub_pos.mpr spans
  rw [fraction_span spans, le_div_iff₀ span, div_le_one span, zero_mul, sub_nonneg,
    sub_le_sub_iff_right]

theorem fraction_flat (low x : Rat) : fraction low low x = 1 / 2 := by
  have flat : ¬ (0.0 : Rat) < low - low := by norm_num
  rw [fraction, if_neg flat]
  norm_num

theorem place_before (sized : 0 < box.size axis) {s t : Rat} (less : s < t) :
    axis.Before (place axis box s) (place axis box t) := by
  cases axis with
  | x =>
      have further : s * box.width < t * box.width := mul_lt_mul_of_pos_right less sized
      simp only [Axis.Before, place]
      linarith
  | y =>
      have further : s * box.height < t * box.height := mul_lt_mul_of_pos_right less sized
      simp only [Axis.Before, place, Scalar.one_rat, sub_mul]
      linarith

theorem place_inside (sized : 0 < box.size axis) (share : Rat) :
    box.Covers axis (place axis box share) ↔ 0 ≤ share ∧ share ≤ 1 := by
  cases axis with
  | x =>
      have wide : 0 < box.width := sized
      simp only [Box.Covers, place, Box.right, le_add_iff_nonneg_right, add_le_add_iff_left]
      rw [mul_nonneg_iff_of_pos_right wide, mul_le_iff_le_one_left wide]
  | y =>
      have tall : 0 < box.height := sized
      simp only [Box.Covers, place, Box.bottom, Scalar.one_rat, le_add_iff_nonneg_right,
        add_le_add_iff_left]
      rw [mul_nonneg_iff_of_pos_right tall, mul_le_iff_le_one_left tall, sub_nonneg,
        sub_le_self_iff, and_comm]

theorem place_ends : place axis box 0 = box.foot axis ∧ place axis box 1 = box.head axis := by
  cases axis with
  | x => simp [place, Box.foot, Box.head, Box.right]
  | y => simp [place, Box.foot, Box.head, Box.bottom, Scalar.one_rat]

theorem place_half : place axis box (1 / 2) = box.centre axis := by
  cases axis with
  | x =>
      simp only [place, Box.centre]
      ring
  | y =>
      simp only [place, Box.centre, Scalar.one_rat]
      ring

end Steps

/-- The values of a range and the pixels along an axis, one for one and in order; the range is drawn
from edge to edge, and nothing else is drawn inside the box. -/
structure Projects (s : Scale Rat) (axis : Axis) (box : Box Rat) (low high : Rat) : Prop where
  reads_drawn : ∀ x, (s.pixel? axis box x).bind (s.value? axis box) = some x
  draws_read : ∀ pixel, (s.value? axis box pixel).bind (s.pixel? axis box) = some pixel
  ordered : ∀ x y, x < y → ∃ p q,
    s.pixel? axis box x = some p ∧ s.pixel? axis box y = some q ∧ axis.Before p q
  ends : s.pixel? axis box low = some (box.foot axis) ∧
    s.pixel? axis box high = some (box.head axis)
  onto : ∀ pixel, box.Covers axis pixel ↔
    ∃ x, low ≤ x ∧ x ≤ high ∧ s.pixel? axis box x = some pixel

section Projection
variable (d : Distribution) (axis : Axis) (box : Box Rat)

theorem projects {low high : Rat} (spans : low < high) (sized : 0 < box.size axis) :
    Projects ⟨d, some (low, high)⟩ axis box low high where
  reads_drawn x := by
    rw [pixel_along, Option.bind_some, value_along d box axis spans, unplace_place box axis sized,
      value_fraction spans]
  draws_read pixel := by
    rw [value_along d box axis spans, Option.bind_some, pixel_along, fraction_value spans,
      place_unplace box axis sized]
  ordered x y less :=
    ⟨_, _, pixel_along d box axis low high x, pixel_along d box axis low high y,
      place_before box axis sized (fraction_lt spans less)⟩
  ends := by
    have start : fraction low high low = 0 := by rw [fraction_span spans, sub_self, zero_div]
    have stop : fraction low high high = 1 := by
      rw [fraction_span spans, div_self (sub_pos.mpr spans).ne']
    rw [pixel_along, pixel_along, start, stop, (place_ends box axis).1, (place_ends box axis).2]
    exact ⟨rfl, rfl⟩
  onto pixel := by
    constructor
    · intro inside
      -- the value read off at the pixel is the one that is drawn there
      rw [← place_unplace box axis sized pixel, place_inside box axis sized] at inside
      refine ⟨low + unplace axis box pixel * (high - low), ?_⟩
      rw [← and_assoc, ← fraction_inside spans, fraction_value spans, pixel_along,
        fraction_value spans, place_unplace box axis sized]
      exact ⟨inside, rfl⟩
    · rintro ⟨x, above, below, drawn⟩
      rw [pixel_along, Option.some.injEq] at drawn
      rw [← drawn, place_inside box axis sized, fraction_inside spans]
      exact ⟨above, below⟩

theorem pixel_flat (low x : Rat) :
    (⟨d, some (low, low)⟩ : Scale Rat).pixel? axis box x = some (box.centre axis) := by
  rw [pixel_along, fraction_flat, place_half]

theorem value_flat (low pixel : Rat) :
    (⟨d, some (low, low)⟩ : Scale Rat).value? axis box pixel = some low := by
  have flat : low - low ≤ (0.0 : Rat) := by norm_num
  simp only [value?, Scalar.isFinite_rat, if_true, if_pos flat]

end Projection

/-- Drawing and reading off undo each other on every axis, inside the range and the box and outside
of them. Over a range without a span everything is drawn in the centre and read off as its one
value; a scale without a range draws and reads nothing. -/
theorem projection_inverts (s : Scale Rat) (axis : Axis) (box : Box Rat) :
    (∀ low high, s.range = some (low, high) → low < high → 0 < box.width → 0 < box.height →
      s.Projects axis box low high) ∧
    (∀ low, s.range = some (low, low) → ∀ z, s.pixel? axis box z = some (box.centre axis) ∧
      s.value? axis box z = some low ∧
      (s.value? axis box z).bind (s.pixel? axis box) = some (box.centre axis)) ∧
    (s.range = none → ∀ z, s.pixel? axis box z = none ∧ s.value? axis box z = none) := by
  obtain ⟨d, range⟩ := s
  refine ⟨?_, ?_, ?_⟩
  · rintro low high rfl spans wide tall
    have sized : 0 < box.size axis := by
      cases axis with
      | x => exact wide
      | y => exact tall
    exact projects d axis box spans sized
  · rintro low rfl z
    have drawn := pixel_flat d axis box low
    have read := value_flat d axis box low z
    refine ⟨drawn z, read, ?_⟩
    rw [read, Option.bind_some, drawn low]
  · rintro rfl z
    exact ⟨rfl, rfl⟩

/-- A pixel above the box, on the vertical axis. -/
theorem pixel_above_inverted :
    let s : Scale Rat := ⟨.linear, some (10, 110)⟩
    let box : Box Rat := ⟨50, 20, 400, 200⟩
    (s.value? .y box 0).bind (s.pixel? .y box) = some 0 ∧ s.pixel? .y box 110 = some 20 ∧
      s.pixel? .y box 10 = some 220 ∧ (s.pixel? .y box 130).bind (s.value? .y box) = some 130 ∧
      (∃ p q, s.pixel? .y box 20 = some p ∧ s.pixel? .y box 30 = some q ∧ q < p) ∧
      (⟨.ordinal, some (3, 3)⟩ : Scale Rat).pixel? .x box 7 = some 250 := by
  intro s box
  have there := (projection_inverts s .y box).1 10 110 rfl (by norm_num) (by norm_num) (by norm_num)
  have flat := (projection_inverts ⟨.ordinal, some (3, 3)⟩ .x box).2.1 3 rfl 7
  have foot : box.foot .y = 220 := by
    simp only [Box.foot, Box.bottom, box]
    norm_num
  have middle : box.centre .x = 250 := by
    simp only [Box.centre, box]
    norm_num
  rw [middle] at flat
  exact ⟨there.draws_read 0, there.ends.2, foot ▸ there.ends.1, there.reads_drawn 130,
    there.ordered 20 30 (by norm_num), flat.1⟩

end Scale
end LadderChart
