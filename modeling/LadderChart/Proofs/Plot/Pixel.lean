import LadderChart.Plot.Projection
import LadderChart.Proofs.Plot.Charted

/-!
Pixels over doubles. A value inside a range lies between zero and one of it, if its distance from the
low end is finite. If that distance overflows, so does the span, their quotient is no number, and
neither is the pixel.
-/

namespace LadderChart
open Float.Model Float.Model.UnpackedFloat

theorem div_infinity {x y : Float} (infinite : y.toModel.unpack = .infinity .positive) :
    (x.isFinite = true → Within 0 (x / y)) ∧
      (x.toModel.unpack = .infinity .positive → (x / y).isFinite = false) := by
  have packed : (x / y).toModel.unpack =
      (Float.Model.pack (UnpackedFloat.div .binary64 x.toModel.unpack y.toModel.unpack)).unpack := rfl
  rw [infinite] at packed
  constructor
  · intro finite
    have zero : ∃ s, (x / y).toModel.unpack = .zero s := by
      rcases finite_cases finite with ⟨s, zero⟩ | ⟨s, m, e, pos, unpacked, _⟩
      · rw [zero] at packed
        exact ⟨s / Sign.positive, packed.trans (unpack_pack_zero _)⟩
      · rw [unpacked] at packed
        exact ⟨s / Sign.positive, packed.trans (unpack_pack_zero _)⟩
    obtain ⟨s, zero⟩ := zero
    refine ⟨?_, by rw [value_zero zero, abs_zero]⟩
    rw [isFinite_eq, zero]
    rfl
  · intro infinite'
    rw [isFinite_eq, packed, infinite']
    rfl

/-- A finite number in a finite range has a distance from the low end that is at most the span. -/
theorem distance_le_span {low high x : Float} (finiteLow : low.isFinite = true)
    (finiteHigh : high.isFinite = true) (finite : x.isFinite = true) (above : low ≤ x)
    (below : x ≤ high) : 0 ≤ Scalar.value x - Scalar.value low ∧
      Scalar.value x - Scalar.value low ≤ Scalar.value high - Scalar.value low := by
  constructor
  · exact sub_nonneg.mpr ((float_le_iff_value finiteLow finite).mp above)
  · exact sub_le_sub_right ((float_le_iff_value finite finiteHigh).mp below) _

namespace Scale
variable {low high x : Float}

section Inside
variable (finiteLow : low.isFinite = true) (finiteHigh : high.isFinite = true)
  (finite : x.isFinite = true) (above : low ≤ x) (below : x ≤ high)
include finiteLow finiteHigh finite above below

theorem fraction_within (near : (x - low).isFinite = true) : Within 1 (fraction low high x) := by
  have distance := sub_rounded finite finiteLow
  have span := sub_rounded finiteHigh finiteLow
  obtain ⟨nonneg, le⟩ := distance_le_span finiteLow finiteHigh finite above below
  have inside := distance.finite_iff.mp near
  unfold fraction
  simp only
  split
  · rename_i spans
    by_cases short : (high - low).isFinite = true
    · have inside' := span.finite_iff.mp short
      rw [zero_lt_iff short] at spans
      have order := distance.mono span inside inside' le
      have share := div_rounded near short spans.ne'
      exact (share.share (div_nonneg (distance.nonneg inside nonneg) spans.le)
        ((div_le_one spans).mpr order)).1
    · -- over an infinite span every finite distance is a share of zero
      have far : overflow ≤ Scalar.value high - Scalar.value low := by
        rw [← not_lt, ← abs_of_nonneg (nonneg.trans le), ← span.finite_iff]
        exact short
      exact ((div_infinity (span.above far)).1 near).mono zero_le_one
  · exact within_half

theorem fraction_infinite (far : (x - low).isFinite = false) :
    (fraction low high x).isFinite = false := by
  have distance := sub_rounded finite finiteLow
  obtain ⟨nonneg, le⟩ := distance_le_span finiteLow finiteHigh finite above below
  have large : overflow ≤ Scalar.value x - Scalar.value low := by
    rw [← not_lt, ← abs_of_nonneg nonneg, ← distance.finite_iff]
    simp [far]
  have span := (sub_rounded finiteHigh finiteLow).above (large.trans le)
  unfold fraction
  simp only
  rw [if_pos (zero_lt_infinity span)]
  exact (div_infinity span).2 (distance.above large)

end Inside

/-! ### Places -/

theorem finite_of_place (axis : Axis) (box : Box Float) {fraction : Float}
    (finite : (place axis box fraction).isFinite = true) : fraction.isFinite = true := by
  cases axis with
  | x => exact (finite_of_mul (finite_of_add finite).2).1
  | y => exact (finite_of_sub (finite_of_mul (finite_of_add finite).2).1).2

variable {s : Scene Float}

theorem place_within (charted : s.Charted) (axis : Axis) {fraction : Float}
    (moderate : Within 32 fraction) : Within (2 ^ 42) (place axis s.box fraction) := by
  cases axis with
  | x =>
      have along := moderate.mul charted.width (by norm_num)
      exact (charted.left.add along (by norm_num)).mono (by norm_num)
  | y =>
      have down := within_one.sub moderate (by norm_num)
      have along := down.mul charted.height (by norm_num)
      exact (charted.top.add along (by norm_num)).mono (by norm_num)

/-- A value inside a range is drawn at a finite pixel exactly if its distance from the low end does
not overflow. -/
theorem place_finite_iff (charted : s.Charted) (axis : Axis) (finiteLow : low.isFinite = true)
    (finiteHigh : high.isFinite = true) (finite : x.isFinite = true) (above : low ≤ x)
    (below : x ≤ high) :
    (place axis s.box (fraction low high x)).isFinite = true ↔ (x - low).isFinite = true := by
  constructor
  · intro placed
    by_contra far
    have none := fraction_infinite finiteLow finiteHigh finite above below (by simpa using far)
    rw [finite_of_place axis s.box placed] at none
    cases none
  · intro near
    have share := fraction_within finiteLow finiteHigh finite above below near
    exact (place_within charted axis (share.mono (by norm_num))).finite

end Scale
end LadderChart
