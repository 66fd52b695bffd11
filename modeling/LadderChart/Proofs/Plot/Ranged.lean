import LadderChart.Proofs.Chart.Options
import LadderChart.Proofs.Plot.Exact
import LadderChart.Proofs.Plot.Spans

/-!
What is in the window has a place. The axes of an engine that was opened are declared, and with
ranges taken from the data an axis has a range as soon as there is something to show on it. Without
rounding that place is in the plot, and the plot is on the canvas.
-/

namespace LadderChart

/-- Scalars that are in order are not in the opposite order at the same time. -/
class Scalar.Strict (α : Type) [Scalar α] : Prop extends Scalar.Ordered α where
  not_lt_of_le {x y : α} : x ≤ y → ¬ y < x

instance : Scalar.Strict Rat where
  not_lt_of_le := Rat.not_lt.mpr

instance : Scalar.Strict Float where
  not_lt_of_le {x y} le less := by
    obtain ⟨r, s, rankX, rankY, below⟩ := (float_le_iff x y).mp le
    obtain ⟨s', r', rankY', rankX', above⟩ := (float_lt_iff y x).mp less
    have sameX : r = r' := Option.some.inj (rankX.symm.trans rankX')
    have sameY : s = s' := Option.some.inj (rankY.symm.trans rankY')
    exact absurd (sameX ▸ sameY ▸ above) (not_lt.mpr below)

section Ranges
variable {α : Type} [Scalar α]

theorem Extent.proper_self [Scalar.Strict α] {range : Option (α × α)} (good : Proper range) :
    proper range = range := by
  cases range with
  | none => rfl
  | some bounds =>
      obtain ⟨finiteLow, finiteHigh, ordered⟩ := good
      exact if_pos ⟨finiteLow, finiteHigh, Scalar.Strict.not_lt_of_le ordered⟩

theorem Extent.of_some [Scalar.Ordered α] {values : List α} {x : α} (member : x ∈ values)
    (finite : ∀ y ∈ values, Scalar.isFinite y = true) : ∃ bounds, of values = some bounds := by
  have spans := of_spans values fun y there => Scalar.Ordered.number_of_finite (finite y there)
  cases found : of values with
  | some bounds => exact ⟨bounds, rfl⟩
  | none =>
      rw [found] at spans
      have empty : values = [] := spans
      rw [empty] at member
      cases member

/-- Columns as they come and rungs as they come: either axis shows what it would show anyway. -/
theorem Options.ranged_of_builtin {o : Options α}
    (columns : ∀ x, o.scales.get? Axis.x.key = some x → x.rule = none)
    (ladder : ∀ y, o.scales.get? Axis.y.key = some y →
      y.rule = none ∨ y.rule = some Options.ladderRule) : o.Ranged := by
  intro axis scale rule found ruled data w
  cases axis with
  | x =>
      rw [columns scale found] at ruled
      cases ruled
  | y =>
      rcases ladder scale found with builtin | same
      · rw [builtin] at ruled
        cases ruled
      · rw [same] at ruled
        cases ruled
        rfl

theorem Engine.resolveAxis_shows [Scalar.Strict α] {o : Options α} (ranged : o.Ranged)
    {axis : Axis} {s : ScaleOptions α} (declared : o.scales.get? axis.key = some s)
    {data : Dataset α} {w : Window}
    (good : Extent.Proper (Scale.builtinRange axis s.distribution data w)) :
    resolveAxis o data (some w) axis =
      ⟨s.distribution, Scale.builtinRange axis s.distribution data w⟩ := by
  simp only [resolveAxis, declared]
  cases ruled : s.rule with
  | none => rfl
  | some rule =>
      simp only [ranged axis s rule declared ruled data w, Extent.proper_self good]

theorem Scale.pixel_some {s : Scale α} (axis : Axis) (box : Box α) {bounds : α × α} {x : α}
    (range : s.range = some bounds) (finite : Scalar.isFinite x = true) :
    ∃ p, s.pixel? axis box x = some p := by
  refine ⟨place axis box (fraction bounds.1 bounds.2 x), ?_⟩
  simp only [pixel?, range, finite, if_true]

namespace Engine
variable {σ ρ : Type} {e : Engine σ ρ α} [Scalar.Strict α]

section Shown
variable (sound : e.Sound) (settled : e.scene.ScaledOn e.options e.scene.basis)
  (ranged : e.options.Ranged) {w : Window} (shown : e.scene.window = some w) {index : Nat}
  (inside : w.contains index = true)
include sound settled ranged shown inside

theorem Sound.columnPixel_some (words : e.scene.data.length ≤ Scalar.largestIndex) :
    ∃ centre, e.scene.columnPixel? index = some centre := by
  have valid := (Dataset.check_eq_ok e.scene.data).mp sound.data
  have fits := sound.window_inside w shown
  obtain ⟨_, last⟩ := (w.contains_iff index).mp inside
  obtain ⟨s, declared, _⟩ := e.options.check_scale sound.options .x
  have good := Scale.columnRange_proper s.distribution e.scene.data w valid fits words
  have axis : e.scene.xScale =
      ⟨s.distribution, Scale.columnRange s.distribution e.scene.data.series w⟩ := by
    rw [settled.x, Scene.basis, shown]
    exact resolveAxis_shows ranged declared good
  rw [Scene.columnPixel?, axis]
  cases s.distribution with
  | ordinal =>
      have finite : Scalar.isFinite (Scalar.ofNat index : α) = true :=
        Scalar.Ordered.finite_ofNat (by omega)
      have range : (⟨.ordinal, Scale.columnRange .ordinal e.scene.data.series w⟩ : Scale α).range =
          some (Scalar.ofNat w.first, Scalar.ofNat w.last) := rfl
      exact Scale.pixel_some .x e.scene.box range finite
  | linear =>
      obtain ⟨v, value⟩ : ∃ v, e.scene.data.series[index]? = some v :=
        ⟨_, List.getElem?_eq_getElem (last.trans_lt fits)⟩
      have member := w.mem_slice e.scene.data.series index v inside value
      obtain ⟨bounds, extent⟩ := Extent.of_some member fun y there =>
        valid.series y (w.mem_of_slice _ y there)
      simp only [Scale.domainValue?, value, Option.bind_some]
      exact Scale.pixel_some .x e.scene.box ((if_pos fits).trans extent)
        (valid.series v (List.mem_of_getElem? value))

theorem Sound.rungPixel_some {rung : α} (member : rung ∈ e.scene.data.rungsAt index) :
    ∃ y, e.scene.rungPixel? rung = some y := by
  have valid := (Dataset.check_eq_ok e.scene.data).mp sound.data
  obtain ⟨s, declared, _⟩ := e.options.check_scale sound.options .y
  have axis : e.scene.yScale = ⟨s.distribution, Scale.ladderRange e.scene.data.ladders w⟩ := by
    rw [settled.y, Scene.basis, shown]
    exact resolveAxis_shows ranged declared (Scale.ladderRange_proper e.scene.data w valid)
  have listed := Dataset.mem_shown_rungs inside member
  have finite := valid.shown_rungs w
  obtain ⟨bounds, extent⟩ := Extent.of_some listed finite
  rw [Scene.rungPixel?, axis]
  exact Scale.pixel_some .y e.scene.box extent (finite rung listed)

end Shown
end Engine
end Ranges

/-! ### Without rounding -/

theorem Scale.fraction_between {low high x : Rat} (above : low ≤ x) (below : x ≤ high) :
    0 ≤ fraction low high x ∧ fraction low high x ≤ 1 := by
  rcases (above.trans below).lt_or_eq with spans | same
  · have span := sub_pos.mpr spans
    rw [fraction_span spans, div_le_one span]
    exact ⟨div_nonneg (sub_nonneg.mpr above) span.le, sub_le_sub_right below low⟩
  · have flat : ¬ (0.0 : Rat) < high - low := by norm_num [same]
    simp only [fraction, if_neg flat]
    norm_num

/-- The middle of the upper edge is in the plot. That is where a cell hangs: at the centre of its
column, from the pixel of its rung. -/
structure Box.Holds {α : Type} [Scalar α] (b : Box α) (r : Rect α) : Prop where
  left : b.left ≤ r.centerX
  right : r.centerX ≤ b.right
  top : b.top ≤ r.y
  bottom : r.y ≤ b.bottom

/-- The plot is on the canvas. -/
structure Box.On {α : Type} [Scalar α] (b : Box α) (v : Viewport) : Prop where
  left : 0.0 ≤ b.left
  right : b.right ≤ ofWord v.width
  top : 0.0 ≤ b.top
  bottom : b.bottom ≤ ofWord v.height

section Placing
variable {box : Box Rat} {share : Rat} (above : 0 ≤ share) (below : share ≤ 1)
include above below

theorem Box.place_across (wide : 0 < box.width) : box.left ≤ Scale.place .x box share ∧
    Scale.place .x box share ≤ box.right := by
  simp only [Scale.place, right]
  constructor <;> nlinarith

theorem Box.place_down (tall : 0 < box.height) : box.top ≤ Scale.place .y box share ∧
    Scale.place .y box share ≤ box.bottom := by
  simp only [Scale.place, bottom]
  norm_num
  constructor <;> nlinarith

end Placing

theorem Insets.check_nonneg {i : Insets Rat} (checked : i.check = .ok ()) :
    0 ≤ i.left ∧ 0 ≤ i.right ∧ 0 ≤ i.top ∧ 0 ≤ i.bottom := by
  simpa only [check, both_eq_ok, checkSide, refuseIf_eq_ok, Scalar.isFinite_rat, Bool.not_true,
    Bool.false_or, decide_eq_false_iff_not, Scalar.zero_rat, not_lt] using checked

theorem Box.ofViewport_on {v : Viewport} {insets : Insets Rat} {ratio : Rat} {box : Box Rat}
    (laid : Box.ofViewport v insets ratio = .ok box) (positive : 0 < ratio) : box.On v := by
  obtain ⟨_, sides, rfl, _, _⟩ := Box.ofViewport_eq_ok laid
  obtain ⟨left, right, top, bottom⟩ := Insets.check_nonneg sides
  have left' := mul_nonneg left positive.le
  have right' := mul_nonneg right positive.le
  have top' := mul_nonneg top positive.le
  have bottom' := mul_nonneg bottom positive.le
  constructor
  · rwa [Scalar.zero_rat]
  · simp only [Box.right]
    linarith
  · rwa [Scalar.zero_rat]
  · simp only [Box.bottom]
    linarith

end LadderChart
