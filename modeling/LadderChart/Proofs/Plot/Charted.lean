import LadderChart.Chart.Scene
import LadderChart.Proofs.Data.Valid
import LadderChart.Proofs.Engine.Setting
import LadderChart.Proofs.Number.Round
import LadderChart.Proofs.Number.Within

/-!
The plot of a chart over doubles has moderate sizes. A canvas has at least one device pixel and at
most a word of them, which bounds the pixel ratio; insets that are too large, or infinite once they
are scaled, leave no plot.
-/

namespace LadderChart
open Float.Model Float.Model.UnpackedFloat

/-- Pixel ratio, place and size of the plot are moderate, and there is something to draw on. -/
structure Scene.Charted (s : Scene Float) : Prop where
  viewport : s.viewport.check = .ok ()
  ratio : Within (2 ^ 32) s.pixelRatio
  fine : 1 / 2 ^ 34 ≤ Scalar.value s.pixelRatio
  left : Within (2 ^ 32) s.box.left
  top : Within (2 ^ 32) s.box.top
  width : Within (2 ^ 32) s.box.width
  height : Within (2 ^ 32) s.box.height
  wide : 0 < Scalar.value s.box.width
  tall : 0 < Scalar.value s.box.height

theorem Scene.Charted.same {s s' : Scene Float} (charted : s.Charted)
    (viewport : s'.viewport = s.viewport) (ratio : s'.pixelRatio = s.pixelRatio)
    (box : s'.box = s.box) : s'.Charted := by
  constructor
  · exact viewport ▸ charted.viewport
  · exact ratio ▸ charted.ratio
  · exact ratio ▸ charted.fine
  · exact box ▸ charted.left
  · exact box ▸ charted.top
  · exact box ▸ charted.width
  · exact box ▸ charted.height
  · exact box ▸ charted.wide
  · exact box ▸ charted.tall

theorem value_ofWord (n : UInt32) : Scalar.value (Box.ofWord n : Float) = n.toNat := by
  have bound := n.toNat_lt
  exact value_ofNat (by omega)

theorem ofWord_within (n : UInt32) : Within (2 ^ 32) (Box.ofWord n : Float) := by
  have bound := n.toNat_lt
  refine ⟨finite_ofNat (by omega), ?_⟩
  rw [value_ofWord, Nat.abs_cast]
  have below : (n.toNat : ℚ) ≤ ((2 ^ 32 : ℕ) : ℚ) := Nat.cast_le.mpr (by omega)
  exact_mod_cast below

/-- A number of device pixels that is not zero bounds the pixel ratio from both sides. -/
theorem Options.devicePixels_ratio {size : UInt32} {ratio : Float} (finite : ratio.isFinite = true)
    (positive : 0 < Scalar.value ratio) (shown : devicePixels size ratio ≠ 0) :
    1 / 2 ^ 34 ≤ Scalar.value ratio ∧ Scalar.value ratio ≤ 2 ^ 32 := by
  unfold devicePixels at shown
  simp only at shown
  split at shown
  · rename_i whole
    split at shown
    · rename_i counted
      obtain ⟨least, most⟩ := counted
      have word := ofWord_within size
      have rounded := mul_rounded word.finite finite
      have inside := rounded.finite_iff.mp whole
      have near := abs_le.mp (Rounding.awayFromZero_near (Scalar.value (Box.ofWord size * ratio)))
      change 1 ≤ Rounding.awayFromZero (Scalar.value (Box.ofWord size * ratio)) at least
      change Rounding.awayFromZero (Scalar.value (Box.ofWord size * ratio)) ≤ 4294967295 at most
      generalize Rounding.awayFromZero (Scalar.value (Box.ofWord size * ratio)) = n at least most near
      have low : (1 : ℚ) ≤ n := by exact_mod_cast least
      have high : (n : ℚ) ≤ 4294967295 := by exact_mod_cast most
      have doubled := (le_abs_self _).trans (rounded.size inside)
      rw [value_ofWord, abs_of_nonneg (by positivity)] at doubled
      have bound : (size.toNat : ℚ) ≤ 2 ^ 32 := by
        have sized := word.size
        rwa [value_ofWord, Nat.abs_cast] at sized
      have filled : 1 ≤ size.toNat := by
        by_contra none
        have zero : size.toNat = 0 := by omega
        rw [zero, Nat.cast_zero, zero_mul, mul_zero] at doubled
        linarith
      have one : (1 : ℚ) ≤ size.toNat := by exact_mod_cast filled
      -- a canvas of at least one pixel is not narrower than the ratio alone
      have above := rounded.ge_of_ge inside finite (by
        rw [value_ofWord]
        nlinarith)
      constructor
      · rw [div_le_iff₀ (by positivity)]
        nlinarith
      · linarith
    · exact absurd rfl shown
  · exact absurd rfl shown

/-! ### Insets -/

/-- What an inset takes away: nothing negative, and perhaps everything. -/
def Takes (x : Float) : Prop :=
  x.isFinite = true ∧ 0 ≤ Scalar.value x ∨ x.toModel.unpack = .infinity .positive

theorem takes_mul {x y : Float} (finite : x.isFinite = true) (nonneg : 0 ≤ Scalar.value x)
    (finite' : y.isFinite = true) (nonneg' : 0 ≤ Scalar.value y) : Takes (x * y) := by
  have rounded := mul_rounded finite finite'
  have product := mul_nonneg nonneg nonneg'
  by_cases inside : |Scalar.value x * Scalar.value y| < overflow
  · exact .inl ⟨rounded.finite_iff.mpr inside, rounded.nonneg inside product⟩
  · rw [abs_of_nonneg product, not_lt] at inside
    exact .inr (rounded.above inside)

/-- What is left after something is taken away is finite, or less than everything finite. -/
def Left (x : Float) : Prop :=
  x.isFinite = true ∨ x.toModel.unpack = .infinity .negative

theorem left_sub {x y : Float} (left : Left x) (takes : Takes y) : Left (x - y) := by
  have packed : (x - y).toModel.unpack =
      (Float.Model.pack (UnpackedFloat.sub .binary64 x.toModel.unpack y.toModel.unpack)).unpack := rfl
  rcases left with finite | infinite
  · rcases takes with ⟨finite', nonneg⟩ | infinite'
    · have rounded := sub_rounded finite finite'
      by_cases inside : |Scalar.value x - Scalar.value y| < overflow
      · exact .inl (rounded.finite_iff.mpr inside)
      · refine .inr (rounded.below ?_)
        have bound := (abs_lt.mp (value_below finite)).2
        rcases le_abs.mp (not_lt.mp inside) with large | small
        · linarith
        · linarith
    · refine .inr ?_
      rcases finite_cases finite with ⟨s, zero⟩ | ⟨s, m, e, pos, unpacked, _⟩
      · rw [packed, zero, infinite']
        exact unpack_pack_infinity .negative
      · rw [packed, unpacked, infinite']
        exact unpack_pack_infinity .negative
  · refine .inr ?_
    rcases takes with ⟨finite', _⟩ | infinite'
    · rcases finite_cases finite' with ⟨s, zero⟩ | ⟨s, m, e, pos, unpacked, _⟩
      · rw [packed, zero, infinite]
        exact unpack_pack_infinity .negative
      · rw [packed, unpacked, infinite]
        exact unpack_pack_infinity .negative
    · rw [packed, infinite, infinite']
      rfl

/-- If something is left of a side, all of it is finite. -/
theorem side_within (word : UInt32) {near far : Float} (takes : Takes near) (takes' : Takes far)
    (large : ¬ Box.ofWord word - near - far ≤ (0.0 : Float)) :
    Within (2 ^ 32) near ∧ Within (2 ^ 32) (Box.ofWord word - near - far) ∧
      0 < Scalar.value (Box.ofWord word - near - far) := by
  have whole := ofWord_within word
  have finite : (Box.ofWord word - near - far).isFinite = true := by
    rcases left_sub (left_sub (.inl whole.finite) takes) takes' with finite | infinite
    · exact finite
    · exact absurd (infinity_le_zero infinite) large
  -- so nothing on the way to it was infinite
  obtain ⟨inner, finiteFar⟩ := finite_of_sub finite
  obtain ⟨_, finiteNear⟩ := finite_of_sub inner
  have nonneg : ∀ {x : Float}, Takes x → x.isFinite = true → 0 ≤ Scalar.value x := by
    intro x takes finite
    rcases takes with ⟨_, nonneg⟩ | infinite
    · exact nonneg
    · rw [isFinite_eq, infinite] at finite
      cases finite
  have nearNonneg := nonneg takes finiteNear
  have farNonneg := nonneg takes' finiteFar
  have positive : 0 < Scalar.value (Box.ofWord word - near - far) := by
    rwa [le_zero_iff finite, not_le] at large
  have first := sub_rounded whole.finite finiteNear
  have second := sub_rounded inner finiteFar
  -- what is rounded to something positive is positive
  have leftOfInner : 0 < Scalar.value (Box.ofWord word - near) - Scalar.value far := by
    by_contra none
    exact absurd (second.nonpos (second.finite_iff.mp finite) (not_lt.mp none)) (not_le.mpr positive)
  have leftOfWord : 0 < Scalar.value (Box.ofWord word : Float) - Scalar.value near := by
    by_contra none
    have := first.nonpos (first.finite_iff.mp inner) (not_lt.mp none)
    linarith
  have innerBelow := first.le_of_le (first.finite_iff.mp inner) whole.finite (by linarith)
  have sizeBelow := second.le_of_le (second.finite_iff.mp finite) inner (by linarith)
  have bound := (le_abs_self _).trans whole.size
  refine ⟨⟨finiteNear, ?_⟩, ⟨finite, ?_⟩, positive⟩
  · rw [abs_of_nonneg nearNonneg]
    linarith
  · rw [abs_of_pos positive]
    linarith

theorem Insets.check_eq_ok {i : Insets Float} (checked : i.check = .ok ()) :
    ∀ x ∈ [i.left, i.right, i.top, i.bottom], x.isFinite = true ∧ 0 ≤ Scalar.value x := by
  have side : ∀ {side : Side} {x : Float}, checkSide side x = .ok () →
      x.isFinite = true ∧ 0 ≤ Scalar.value x := by
    intro side x checked
    rw [checkSide, refuseIf_eq_ok, Bool.or_eq_false_iff, Bool.not_eq_false', decide_eq_false_iff_not]
      at checked
    have finite : x.isFinite = true := checked.1
    have nonneg := checked.2
    rw [float_lt_iff_value finite finite_float_zero, value_float_zero, not_lt] at nonneg
    exact ⟨finite, nonneg⟩
  simp only [check, both_eq_ok] at checked
  obtain ⟨left, right, top, bottom⟩ := checked
  simp only [List.forall_mem_cons, List.not_mem_nil, IsEmpty.forall_iff, implies_true, and_true]
  exact ⟨side left, side right, side top, side bottom⟩

theorem Box.ofViewport_within {v : Viewport} {insets : Insets Float} {ratio : Float}
    {box : Box Float} (laid : Box.ofViewport v insets ratio = .ok box)
    (finite : ratio.isFinite = true) (positive : 0 < Scalar.value ratio) :
    v.check = .ok () ∧ (Within (2 ^ 32) box.left ∧ Within (2 ^ 32) box.width ∧
      0 < Scalar.value box.width) ∧
        Within (2 ^ 32) box.top ∧ Within (2 ^ 32) box.height ∧ 0 < Scalar.value box.height := by
  obtain ⟨canvas, sides, rfl, wide, tall⟩ := Box.ofViewport_eq_ok laid
  have taken := Insets.check_eq_ok sides
  have takes : ∀ x ∈ [insets.left, insets.right, insets.top, insets.bottom],
      Takes (x * ratio) := by
    intro x member
    exact takes_mul (taken x member).1 (taken x member).2 finite positive.le
  simp only [List.forall_mem_cons, List.not_mem_nil, IsEmpty.forall_iff, implies_true,
    and_true] at takes
  obtain ⟨left, right, top, bottom⟩ := takes
  exact ⟨canvas, side_within v.width left right wide, side_within v.height top bottom tall⟩

theorem Options.check_finiteRatio {o : Options Float} (checked : o.check = .ok ()) :
    o.pixelRatio.isFinite = true ∧ 0 < Scalar.value o.pixelRatio := by
  unfold check at checked
  simp only [] at checked
  rw [throwIf_eq_ok, both_eq_ok, refuseIf_eq_ok, Bool.or_eq_false_iff, Bool.not_eq_false',
    decide_eq_false_iff_not] at checked
  have finite : o.pixelRatio.isFinite = true := checked.2.1.1
  have positive := checked.2.1.2
  rw [le_zero_iff finite, not_le] at positive
  exact ⟨finite, positive⟩

theorem Options.charted {o : Options Float} {s : Scene Float} (checked : o.check = .ok ())
    (laid : Box.ofViewport o.viewport o.insets o.pixelRatio = .ok s.box)
    (viewport : s.viewport = o.viewport) (same : s.pixelRatio = o.pixelRatio) : s.Charted := by
  obtain ⟨finite, positive⟩ := check_finiteRatio checked
  obtain ⟨canvas, ⟨left, width, wide⟩, top, height, tall⟩ :=
    Box.ofViewport_within laid finite positive
  have shown : devicePixels o.width o.pixelRatio ≠ 0 := by
    intro none
    simp [Viewport.check, Options.viewport, none] at canvas
  obtain ⟨fine, most⟩ := devicePixels_ratio finite positive shown
  have ratio : Within (2 ^ 32) o.pixelRatio := ⟨finite, by rwa [abs_of_pos positive]⟩
  exact ⟨viewport ▸ canvas, same ▸ ratio, same ▸ fine, left, top, width, height, wide, tall⟩

/-! ### Reachable engines -/

namespace Engine
variable {σ ρ : Type} {backend : Backend ρ Float} {screen : ρ} {config : Config σ Float}
  {data : Dataset Float}

theorem LaidOut.charted {first e : Engine σ ρ Float}
    (start : LaidOut backend screen config data first) (setting : SameSetting first e) :
    e.scene.Charted := by
  obtain ⟨viewport, ratio⟩ := start.sized setting
  refine Options.charted start.options ?_ viewport ratio
  rw [setting.box]
  exact start.box

theorem reach_charted {e : Engine σ ρ Float}
    (opened : openWith backend screen config data = .opened e) (calls : List (Call Float)) :
    (e.run calls).scene.Charted := by
  obtain ⟨first, start, same⟩ := reach_setting opened calls
  exact start.charted same

end Engine
end LadderChart
