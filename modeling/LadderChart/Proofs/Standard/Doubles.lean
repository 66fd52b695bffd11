import LadderChart.Proofs.Overlay.Shown
import LadderChart.Proofs.Plot.Pixel
import LadderChart.Proofs.Standard.Ink
import LadderChart.Proofs.Standard.Rebuild

/-!
The standard chart over doubles. Colours and sizes are good there too, and the frame of a plot is in
place, so an update fails in one way only: something it draws has no finite place.
-/

namespace LadderChart

/-! ### Ink -/

/-- The channels of colours that are made of bytes. -/
theorem channel_byte {n : Nat} (byte : n ≤ 255) :
    Color.badChannel (Scalar.ofNat n / 255.0 : Float) = false := by
  have value : Scalar.value (Float.ofNat n) = n := value_ofNat (by omega)
  have most : Scalar.value (255.0 : Float) = 255 := by decide
  have whole : (255.0 : Float).isFinite = true := by decide
  have share := @div_rounded (Float.ofNat n) 255.0 (finite_ofNat (by omega)) whole
    (by rw [most]; norm_num)
  rw [value, most] at share
  obtain ⟨within, nonneg⟩ := share.share (by positivity) (by
    rw [div_le_one (by norm_num)]
    exact_mod_cast byte)
  have low := (zero_le_iff within.finite).mpr nonneg
  have high := (float_le_iff_value within.finite within_one.finite).mpr
    (value_float_one.symm ▸ (le_abs_self _).trans within.size)
  simp only [Color.badChannel, Bool.or_eq_false_iff, Bool.not_eq_false', Bool.and_eq_true,
    decide_eq_true_eq]
  exact ⟨within.finite, low, high⟩

theorem Heat.fill_double (weight : Float) (range : ColorRange Float) :
    (fill weight range).check = .ok () := by
  have dark := @channel_byte 50 (by decide)
  have blue := channel_byte (blueByte_le weight range)
  have alpha : Color.badChannel (0.5 : Float) = false := by decide
  simp only [Color.check, Color.badChannel?, fill, Color.ofBytes, dark, blue, alpha,
    Bool.false_eq_true, if_false]

/-- Whatever the width of a column, its cells have one between zero and the widest. -/
theorem LadderStyle.bodyWidth_between (columnWidth : Float) :
    (0.0 : Float) ≤ LadderStyle.standard.bodyWidth columnWidth ∧
      LadderStyle.standard.bodyWidth columnWidth ≤ (50.0 : Float) := by
  have zero : Scalar.isNaN (0.0 : Float) = false := by decide
  have widest : Scalar.isNaN (50.0 : Float) = false := by decide
  have nonneg : (0.0 : Float) ≤ 50.0 := by decide
  have inner : Scalar.isNaN (Scalar.lower 50.0 (columnWidth - 2.0)) = false ∧
      Scalar.lower 50.0 (columnWidth - 2.0) ≤ (50.0 : Float) := by
    cases number : Scalar.isNaN (columnWidth - 2.0) with
    | false =>
        obtain ⟨one, le, _⟩ := Extent.lower_spec (50.0 : Float) (columnWidth - 2.0) widest number
        refine ⟨?_, le⟩
        rcases one with same | same
        · rw [same]
          exact widest
        · rw [same]
          exact number
    | true =>
        -- what is no number is never the smaller one
        have apart : ¬ columnWidth - 2.0 < (50.0 : Float) := by
          rw [float_lt_iff]
          rintro ⟨r, _, rank, _⟩
          have ranked := (float_number_iff _).mpr ⟨r, rank⟩
          rw [number] at ranked
          cases ranked
        have same : Scalar.lower 50.0 (columnWidth - 2.0) = (50.0 : Float) := by
          simp only [Scalar.lower, if_neg apart, widest, Bool.false_eq_true, if_false]
        rw [same]
        exact ⟨widest, Scalar.Ordered.le_refl widest⟩
  -- so the larger of it and zero is a number too, and no wider
  obtain ⟨one, _, above⟩ := Extent.upper_spec _ (0.0 : Float) inner.1 zero
  refine ⟨above, ?_⟩
  change Scalar.upper (Scalar.lower 50.0 (columnWidth - 2.0)) 0.0 ≤ (50.0 : Float)
  rcases one with same | same
  · rw [same]
    exact inner.2
  · rw [same]
    exact nonneg

theorem LadderStyle.bodyWidth_within (columnWidth : Float) :
    Within 50 (LadderStyle.standard.bodyWidth columnWidth) := by
  obtain ⟨above, below⟩ := bodyWidth_between columnWidth
  have whole : (50.0 : Float).isFinite = true := by decide
  have value : Scalar.value (50.0 : Float) = 50 := by decide
  have finite := finite_of_between finite_float_zero whole above below
  refine ⟨finite, ?_⟩
  rw [abs_of_nonneg ((zero_le_iff finite).mp above), ← value]
  exact (float_le_iff_value finite whole).mp below

instance : Scalar.Inked Float where
  axes := by decide
  style := by constructor <;> decide
  heat := Heat.fill_double
  body columnWidth := ⟨(LadderStyle.bodyWidth_within columnWidth).finite,
    (LadderStyle.bodyWidth_between columnWidth).1⟩
  cell := by decide

theorem positive_double {x : Float} (finite : x.isFinite = true) (above : 0 < Scalar.value x) :
    positive x = true := by
  simp only [positive, Bool.and_eq_true, Bool.not_eq_true', decide_eq_false_iff_not]
  refine ⟨finite, ?_⟩
  rw [le_zero_iff finite, not_le]
  exact above

namespace Scene.Charted
variable {s : Scene Float} (charted : s.Charted)
include charted

theorem ratio_pos : 0 < Scalar.value s.pixelRatio :=
  lt_of_lt_of_le (by norm_num) charted.fine

/-- Sizes of at least one pixel on the page are positive on the canvas. -/
theorem positive_size {size : Float} (moderate : Within 32 size)
    (least : 1 ≤ Scalar.value size) : positive (size * s.pixelRatio) = true := by
  have ratio := charted.ratio_pos
  have scaled := moderate.mul charted.ratio (by norm_num)
  have product := mul_rounded moderate.finite charted.ratio.finite
  have above := product.ge_of_ge (product.finite_iff.mp scaled.finite) charted.ratio.finite
    (le_mul_of_one_le_left ratio.le least)
  exact positive_double scaled.finite (ratio.trans_le above)

theorem framed : s.Framed := by
  have six : Within 8 (6.0 : Float) := by constructor <;> decide
  have gap := six.mul charted.ratio (by norm_num)
  have right := charted.left.add charted.width (by norm_num)
  have bottom := charted.top.add charted.height (by norm_num)
  have middle := (ofWord_within s.viewport.width).half (by norm_num)
  constructor
  · exact positive_double charted.ratio.finite charted.ratio_pos
  · exact charted.positive_size (by constructor <;> decide) (by decide)
  · exact charted.positive_size (by constructor <;> decide) (by decide)
  · exact ⟨middle.finite, gap.finite⟩
  · exact ⟨charted.left.finite, charted.top.finite⟩
  · exact ⟨right.finite, bottom.finite⟩
  · exact (bottom.add gap (by norm_num)).finite
  · exact (charted.left.sub gap (by norm_num)).finite

end Scene.Charted

/-! ### Frames -/

theorem Recorder.answers {α : Type} [Scalar α] (r : Recorder α) (f : Frame α) :
    ((Recorder.backend.paint r f).2 = none ↔ f.check = .ok ()) ∧
      ((Recorder.backend.repaint r f).2 = none ↔ f.check = .ok ()) := by
  simp only [backend, counting]
  cases checked : f.check with
  | ok done => simp
  | error fault => simp

namespace Engine

section Frames
variable {α : Type} [Scalar α]

theorem picture_kind (o : Options α) (s : Scene α) : (picture o s).ink.kind = .main :=
  (Canvas.apply_kind _ _).trans (Canvas.run_kind _ _)

theorem bareFrame_check_iff {v : Viewport} {ink : Layer α} (main : ink.kind = .main) :
    (bareFrame v ink).check = .ok () ↔ v.check = .ok () ∧ ink.check = .ok () := by
  have layers : (bareFrame v ink).layers = [.blank .under, ink, .blank .over] := by
    simp [bareFrame, Frame.full, Frame.setLayer, Frame.replace, Layer.blank, main]
  have blank : ∀ kind, (Layer.blank kind : Layer α).check = .ok () := fun _ => rfl
  rw [Frame.check_eq_ok, layers]
  simp only [List.forall_mem_cons, blank, true_and, List.not_mem_nil, IsEmpty.forall_iff,
    implies_true, and_true]
  rfl

theorem sketchFrame_check_iff [Scalar.Written α] [Scalar.Inked α] {o : Options α} {s : Scene α}
    (viewport : s.viewport.check = .ok ()) (framed : s.Framed) :
    (sketchFrame o s).check = .ok () ↔ s.Placeable o := by
  rw [sketchFrame, bareFrame_check_iff (picture_kind o s), picture_check_iff framed]
  exact and_iff_right viewport

end Frames

/-- An update of a chart without a hovered column ends well exactly if all that it draws has a
place. -/
theorem renew_fault_iff {e : Engine Band (Recorder Float) Float} (standard : e.Standard)
    (stirred : e.Stirred) (away : e.scene.cursor.index = none)
    (recorder : e.backend = Recorder.backend) (charted : e.scene.Charted) :
    e.renew.fault = none ↔ e.resolveScales.scene.Placeable e.options := by
  have charted' : e.resolveScales.scene.Charted := charted.same rfl rfl rfl
  have frame := sketch_bare (rests_tell stirred) away
  have fault : e.renew.fault = (e.backend.paint e.screen e.tell.sketch.fullFrame).2 := by
    rw [renew_standard standard]
    exact accepted_fault _ _
  rw [fault, recorder, (Recorder.answers _ _).1, frame]
  exact sketchFrame_check_iff charted.viewport charted'.framed

end Engine
end LadderChart
