import LadderChart.Chart.Axes
import LadderChart.Proofs.Plot.Pixel

/-!
Ticks over doubles. Rounding can carry the last tick above the high end of its range, and next to the
largest double what is above the high end could be too far from the low end. It is not: if the span
is finite, a tick that is a number has a finite distance from the low end.
-/

namespace LadderChart

/-- A range with a finite span. -/
structure Scale.Spanned (low high : Float) : Prop where
  finiteLow : low.isFinite = true
  finiteHigh : high.isFinite = true
  order : low ≤ high
  short : (high - low).isFinite = true

namespace Axes

theorem tickTarget_bounds {α : Type} [Scalar α] (length spacing : α) :
    2 ≤ tickTarget length spacing ∧ tickTarget length spacing ≤ 12 := by
  unfold tickTarget fewestTicks mostTicks
  split
  · exact ⟨le_refl 2, by decide⟩
  · omega

def tickStep (low high : Float) (n : Nat) : Float := (high - low) / Scalar.ofNat n

theorem mem_tickValues {low step v : Float} {ticks : Nat} (member : v ∈ tickValues low step ticks) :
    v = low ∨ ∃ k < ticks, v = low + step * Scalar.ofNat k := by
  unfold tickValues at member
  split at member
  · exact .inl (List.mem_singleton.mp member)
  · obtain ⟨k, inside, same⟩ := List.mem_map.mp member
    split at same
    · exact .inr ⟨k, List.mem_range.mp inside, same.symm⟩
    · exact .inl same.symm

/-- One of the ticks of such a range, counted from zero to `n`. -/
structure Tick (low high : Float) (n k : Nat) : Prop extends Scale.Spanned low high where
  some : 1 ≤ n
  few : n ≤ 11
  index : k ≤ n

/-- The largest span that is rounded down, and down to what. -/
def widest : Float := .ofBits 0x7FEFFFFFFFFFFFFE + .ofBits 0x7C90000000000000

theorem widest_rounded : Rounded (overflow - 2 * halfUnit) widest := by
  have sum := @add_rounded (.ofBits 0x7FEFFFFFFFFFFFFE) (.ofBits 0x7C90000000000000)
    (by decide) (by decide)
  have exact : Scalar.value (Float.ofBits 0x7FEFFFFFFFFFFFFE) +
      Scalar.value (Float.ofBits 0x7C90000000000000) = overflow - 2 * halfUnit := by decide +kernel
  exact exact ▸ sum

/-- Steps over such a span do not add up to the largest double. -/
theorem widest_steps : ∀ n ∈ List.range' 1 11,
    (widest / Scalar.ofNat n * Scalar.ofNat n).isFinite = true ∧
      Scalar.value (widest / Scalar.ofNat n * Scalar.ofNat n) < overflow - halfUnit := by
  decide +kernel

namespace Tick
variable {low high : Float} {n k : Nat} (tick : Tick low high n k)
include tick

theorem span : Rounded (Scalar.value high - Scalar.value low) (high - low) :=
  sub_rounded tick.finiteHigh tick.finiteLow

theorem span_inside : |Scalar.value high - Scalar.value low| < overflow :=
  tick.span.finite_iff.mp tick.short

theorem span_nonneg : 0 ≤ Scalar.value (high - low) :=
  tick.span.nonneg tick.span_inside
    (sub_nonneg.mpr ((float_le_iff_value tick.finiteLow tick.finiteHigh).mp tick.order))

theorem count : (1 : ℚ) ≤ n ∧ (k : ℚ) ≤ n :=
  ⟨by exact_mod_cast tick.some, by exact_mod_cast tick.index⟩

theorem step_rounded : Rounded (Scalar.value (high - low) / n) (tickStep low high n) := by
  have few := tick.few
  have value : Scalar.value (Float.ofNat n) = n := value_ofNat (by omega)
  have quotient := @div_rounded (high - low) (Float.ofNat n) tick.short (finite_ofNat (by omega))
    (by rw [value]; exact (zero_lt_one.trans_le tick.count.1).ne')
  rwa [value] at quotient

theorem step_inside : |Scalar.value (high - low) / n| < overflow := by
  have nonneg := tick.span_nonneg
  rw [abs_of_nonneg (div_nonneg nonneg (zero_le_one.trans tick.count.1))]
  calc Scalar.value (high - low) / n ≤ Scalar.value (high - low) := div_le_self nonneg tick.count.1
    _ ≤ |Scalar.value (high - low)| := le_abs_self _
    _ < overflow := value_below tick.short

theorem step_nonneg : 0 ≤ Scalar.value (tickStep low high n) :=
  tick.step_rounded.nonneg tick.step_inside
    (div_nonneg tick.span_nonneg (zero_le_one.trans tick.count.1))

theorem offset_rounded : Rounded (Scalar.value (tickStep low high n) * k)
    (tickStep low high n * Scalar.ofNat k) := by
  have few := tick.few
  have index := tick.index
  have value : Scalar.value (Float.ofNat k) = k := value_ofNat (by omega)
  have product := @mul_rounded (tickStep low high n) (Float.ofNat k)
    (tick.step_rounded.finite_iff.mpr tick.step_inside) (finite_ofNat (by omega))
  rwa [value] at product

section Offset
variable (whole : (tickStep low high n * Scalar.ofNat k).isFinite = true)
include whole

theorem offset_nonneg : 0 ≤ Scalar.value (tickStep low high n * Scalar.ofNat k) :=
  tick.offset_rounded.nonneg (tick.offset_rounded.finite_iff.mp whole)
    (mul_nonneg tick.step_nonneg (Nat.cast_nonneg k))

theorem offset_le : Scalar.value (tickStep low high n * Scalar.ofNat k) ≤
    4 * Scalar.value (high - low) := by
  have nonneg := tick.span_nonneg
  obtain ⟨one, index⟩ := tick.count
  have step := (le_abs_self _).trans (tick.step_rounded.size tick.step_inside)
  have offset := (le_abs_self _).trans
    (tick.offset_rounded.size (tick.offset_rounded.finite_iff.mp whole))
  rw [abs_of_nonneg (div_nonneg nonneg (zero_le_one.trans one))] at step
  rw [abs_of_nonneg (mul_nonneg tick.step_nonneg (Nat.cast_nonneg k))] at offset
  calc Scalar.value (tickStep low high n * Scalar.ofNat k)
      ≤ 2 * (Scalar.value (tickStep low high n) * k) := offset
    _ ≤ 2 * (2 * (Scalar.value (high - low) / n) * n) := by
        have positive : 0 ≤ 2 * (Scalar.value (high - low) / n) := tick.step_nonneg.trans step
        gcongr
    _ = 4 * Scalar.value (high - low) := by
        field_simp
        ring

/-- Below the widest span rounding does not lead to the largest double. -/
theorem offset_short (narrow : Scalar.value high - Scalar.value low ≤ overflow - 2 * halfUnit) :
    Scalar.value (tickStep low high n * Scalar.ofNat k) < overflow - halfUnit := by
  have few := tick.few
  have some := tick.some
  obtain ⟨one, index⟩ := tick.count
  -- span, step and offset are each at most those of the widest span
  obtain ⟨finite, below⟩ := widest_steps n (List.mem_range'_1.mpr ⟨some, by omega⟩)
  obtain ⟨finiteStep, finiteCount⟩ := finite_of_mul finite
  have value : Scalar.value (Float.ofNat n) = n := value_ofNat (by omega)
  have step := @div_rounded widest (Float.ofNat n) (finite_of_div finiteStep) finiteCount
    (by rw [value]; exact (zero_lt_one.trans_le one).ne')
  have offset := mul_rounded finiteStep finiteCount
  have spans := tick.span.mono widest_rounded tick.span_inside
    (widest_rounded.finite_iff.mp (finite_of_div finiteStep)) narrow
  have steps := tick.step_rounded.mono step tick.step_inside (step.finite_iff.mp finiteStep) (by
    rw [value]
    gcongr)
  have offsets := tick.offset_rounded.mono offset (tick.offset_rounded.finite_iff.mp whole)
    (offset.finite_iff.mp finite) (by
      rw [show Scalar.value (Scalar.ofNat n : Float) = n from value]
      exact mul_le_mul steps index (Nat.cast_nonneg k) (tick.step_nonneg.trans steps))
  exact offsets.trans_lt below

end Offset

section Whole
variable (whole : (low + tickStep low high n * Scalar.ofNat k).isFinite = true)
include whole

theorem sum_rounded : Rounded
    (Scalar.value low + Scalar.value (tickStep low high n * Scalar.ofNat k))
    (low + tickStep low high n * Scalar.ofNat k) :=
  add_rounded tick.finiteLow (finite_of_add whole).2

/-- Both ends of the range are doubles, and the tick is the one nearest to the exact sum. -/
theorem sum_bounds (z : Float) (finite : z.isFinite = true) :
    |Scalar.value (low + tickStep low high n * Scalar.ofNat k) -
        (Scalar.value low + Scalar.value (tickStep low high n * Scalar.ofNat k))| ≤
      |Scalar.value z -
        (Scalar.value low + Scalar.value (tickStep low high n * Scalar.ofNat k))| :=
  (tick.sum_rounded whole).nearest ((tick.sum_rounded whole).finite_iff.mp whole) finite

theorem distance_bounds :
    0 ≤ Scalar.value (low + tickStep low high n * Scalar.ofNat k) - Scalar.value low ∧
    Scalar.value (low + tickStep low high n * Scalar.ofNat k) - Scalar.value low ≤
      2 * Scalar.value (tickStep low high n * Scalar.ofNat k) := by
  have offset := tick.offset_nonneg (finite_of_add whole).2
  have near := tick.sum_bounds whole low tick.finiteLow
  rw [sub_add_cancel_left, abs_neg, abs_of_nonneg offset] at near
  have bounds := abs_le.mp near
  constructor <;> linarith

theorem distance_finite :
    (low + tickStep low high n * Scalar.ofNat k - low).isFinite = true := by
  have distance := sub_rounded whole tick.finiteLow
  obtain ⟨nonneg, _⟩ := tick.distance_bounds whole
  rw [distance.finite_iff, abs_of_nonneg nonneg]
  have offset := (finite_of_add whole).2
  by_cases narrow : Scalar.value high - Scalar.value low ≤ overflow - 2 * halfUnit
  · -- rounding moves the tick by half a unit at most
    have short := tick.offset_short offset narrow
    have close := (tick.sum_rounded whole).close ((tick.sum_rounded whole).finite_iff.mp whole)
    linarith [(abs_le.mp close).2]
  · -- the high end is as far away as a double can be, and the tick is no farther from the sum
    have near := (abs_le.mp (tick.sum_bounds whole high tick.finiteHigh)).2
    have most := (le_abs_self _).trans (value_most offset)
    have span := (abs_lt.mp tick.span_inside).2
    rw [not_le] at narrow
    rcases le_total 0 (Scalar.value high -
      (Scalar.value low + Scalar.value (tickStep low high n * Scalar.ofNat k))) with above | below
    · rw [abs_of_nonneg above] at near
      linarith
    · rw [abs_of_nonpos below] at near
      linarith

theorem within : Within 32
    (Scale.fraction low high (low + tickStep low high n * Scalar.ofNat k)) := by
  unfold Scale.fraction
  simp only
  split
  · rename_i spans
    rw [zero_lt_iff tick.short] at spans
    have near := tick.distance_finite whole
    have distance := sub_rounded whole tick.finiteLow
    obtain ⟨nonneg, doubled⟩ := tick.distance_bounds whole
    have offset := tick.offset_le (finite_of_add whole).2
    have size := distance.size (distance.finite_iff.mp near)
    rw [abs_of_nonneg nonneg] at size
    refine (Within.of_rounded (a := 16) (div_rounded near tick.short spans.ne') ?_
      (by norm_num)).mono (by norm_num)
    rw [abs_div, abs_of_pos spans, div_le_iff₀ spans]
    linarith
  · exact within_half.mono (by norm_num)

end Whole
end Tick

/-- A tick that is a number has a moderate share of the span. -/
theorem tick_within {low high v : Float} {ticks : Nat} (spanned : Scale.Spanned low high)
    (bounds : 2 ≤ ticks ∧ ticks ≤ 12)
    (member : v ∈ tickValues low ((high - low) / Scalar.ofNat (ticks - 1)) ticks)
    (whole : v.isFinite = true) : Within 32 (Scale.fraction low high v) := by
  rcases mem_tickValues member with rfl | ⟨k, inside, rfl⟩
  · have same : (v - v).isFinite = true := by
      rw [(sub_rounded whole whole).finite_iff, sub_self, abs_zero]
      exact room (by norm_num)
    have self := (float_le_iff_value whole whole).mpr (le_refl _)
    exact (Scale.fraction_within whole spanned.finiteHigh whole self spanned.order same).mono
      (by norm_num)
  · have tick : Tick low high (ticks - 1) k := ⟨spanned, by omega, by omega, by omega⟩
    exact tick.within whole

end Axes
end LadderChart
