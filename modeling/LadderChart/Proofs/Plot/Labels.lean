import LadderChart.Proofs.Plot.Rescaled
import LadderChart.Proofs.Plot.Ticks

/-!
Where the labels of the axes stand, without rounding. One stride serves all the columns of a window,
and reaches as many of them as there is room for, or at least half as many. The ticks of a range
stand evenly from its low end at the foot of the plot to its high end at the head.
-/

namespace LadderChart

namespace Window
variable (w : Window) (step : Nat)

theorem length_everyNth : (w.everyNth step).length = w.span / step + 1 := by
  simp [everyNth]

theorem everyNth_one : w.everyNth 1 = w.indices := by
  simp [everyNth, indices, size]

theorem contains_of_everyNth {index : Nat} (member : index ∈ w.everyNth step) :
    w.contains index = true := by
  obtain ⟨k, few, rfl⟩ := List.mem_range'.mp member
  have reach : step * k ≤ w.span :=
    (Nat.mul_le_mul_left step (Nat.le_of_lt_succ few)).trans (Nat.mul_div_le w.span step)
  have ordered := w.ordered
  rw [span] at reach
  exact (w.contains_iff _).mpr ⟨Nat.le_add_right _ _, by omega⟩

end Window

namespace Axes

/-! ### The stride -/

section Stride
variable (columns : Nat) {ticks : Nat}

theorem one_le_stride : 1 ≤ stride columns ticks := le_max_left _ _

variable (room : 0 < ticks)
include room

theorem stride_few {columns : Nat} (few : columns ≤ ticks) : stride columns ticks = 1 := by
  have quotient : (columns + ticks - 1) / ticks < 2 := (Nat.div_lt_iff_lt_mul room).mpr (by omega)
  rw [stride]
  omega

/-- So many strides reach past all columns. -/
theorem columns_le_stride : columns ≤ stride columns ticks * ticks := by
  have rest : columns + ticks - 1 < ticks * ((columns + ticks - 1) / ticks + 1) :=
    Nat.lt_mul_div_succ _ room
  rw [Nat.mul_succ, Nat.mul_comm ticks] at rest
  calc columns ≤ (columns + ticks - 1) / ticks * ticks := by omega
    _ ≤ stride columns ticks * ticks := Nat.mul_le_mul_right ticks (le_max_right _ _)

/-- But not by more than the last of them. -/
theorem stride_lt {columns : Nat} (many : ticks < columns) :
    stride columns ticks * ticks < columns + ticks := by
  have more : 1 ≤ (columns + ticks - 1) / ticks := (Nat.one_le_div_iff room).mpr (by omega)
  have multiple := Nat.div_mul_le_self (columns + ticks - 1) ticks
  rw [stride, max_eq_right more]
  omega

variable (w : Window)

theorem reached_le : (w.everyNth (stride w.size ticks)).length ≤ ticks := by
  have past := columns_le_stride w.size room
  have inside : w.span / stride w.size ticks < ticks := by
    rw [Nat.div_lt_iff_lt_mul (one_le_stride w.size), Nat.mul_comm]
    exact past
  rw [w.length_everyNth]
  exact inside

theorem le_reached (many : ticks < w.size) :
    ticks ≤ 2 * (w.everyNth (stride w.size ticks)).length := by
  have short := stride_lt room many
  have all : w.span < stride w.size ticks * (w.everyNth (stride w.size ticks)).length := by
    rw [w.length_everyNth]
    exact Nat.lt_mul_div_succ _ (one_le_stride w.size)
  have wide : w.size = w.span + 1 := rfl
  -- one stride is less than two columns for each tick
  have bound : stride w.size ticks * ticks <
      stride w.size ticks * (2 * (w.everyNth (stride w.size ticks)).length) := by
    rw [Nat.mul_left_comm]
    omega
  exact (Nat.lt_of_mul_lt_mul_left bound).le

/-- Twice as many columns as labels, and one column more. -/
example : ((⟨0, 23, Nat.zero_le _⟩ : Window).everyNth (stride 24 12)).length = 12 ∧
    ((⟨0, 24, Nat.zero_le _⟩ : Window).everyNth (stride 25 12)).length = 9 := by decide

end Stride

/-! ### Columns -/

/-- As many labels as there is room for. -/
def columnTicks (s : Scene Rat) : Nat := tickTarget s.box.width (160.0 * s.pixelRatio)

def beneath (s : Scene Rat) (l : Rat × String) : Label Rat :=
  ⟨l.2, l.1, s.box.bottom + 6.0 * s.pixelRatio, 11.0 * s.pixelRatio, color, .center⟩

/-- A column is labelled with its value, beneath the place where it is drawn. -/
def LabelsColumn (o : Options Rat) (s : Scene Rat) (index : Nat) (l : Label Rat) : Prop :=
  ∃ x value, s.columnPixel? index = some x ∧ s.data.series[index]? = some value ∧
    l = beneath s (x, columnText o value)

/-- The labels of the columns: none on a degenerate axis, and else one for every so many columns of
the window, from its first on. -/
structure ColumnsCovered (o : Options Rat) (s : Scene Rat) (labels : List (Label Rat)) : Prop where
  room : 2 ≤ columnTicks s ∧ columnTicks s ≤ 12
  degenerate : s.xScale.isDegenerate = true → labels = []
  spaced : s.xScale.isDegenerate = false → ∃ w stride, s.window = some w ∧ 1 ≤ stride ∧
    List.Forall₂ (LabelsColumn o s) (w.everyNth stride) labels ∧
    labels.length ≤ columnTicks s ∧
    (w.size ≤ columnTicks s → w.everyNth stride = w.indices) ∧
    (columnTicks s < w.size → columnTicks s ≤ 2 * labels.length)

theorem forall₂_filterMap {τ υ : Type} {f : τ → Option υ} {R : τ → υ → Prop} {xs : List τ}
    (found : ∀ x ∈ xs, ∃ y, f x = some y ∧ R x y) : List.Forall₂ R xs (xs.filterMap f) := by
  induction xs with
  | nil => exact .nil
  | cons x rest ih =>
      obtain ⟨⟨y, here, related⟩, later⟩ := List.forall_mem_cons.mp found
      rw [List.filterMap_cons_some here]
      exact .cons related (ih later)

theorem columnLabel_none {s : Scene Rat} (o : Options Rat) (degenerate : s.xScale.range = none)
    (index : Nat) : columnLabel? o s index = none := by
  have nowhere : s.columnPixel? index = none := by
    simp [Scene.columnPixel?, Scale.pixel?, degenerate]
  simp only [columnLabel?, nowhere]

theorem columnLabel_some {s : Scene Rat} (o : Options Rat) {low high : Rat} {w : Window}
    (range : s.xScale.range = some (low, high)) (fits : w.last < s.data.length) (index : Nat)
    (inside : w.contains index = true) : ∃ l, columnLabel? o s index = some l ∧
      LabelsColumn o s index (beneath s l) := by
  obtain ⟨v, placed⟩ := Scene.column_placed s.xScale.distribution s.data.series fits index inside
  have drawn := Scene.column_drawn range index v placed
  obtain ⟨_, upTo⟩ := (w.contains_iff index).mp inside
  have column : s.data.series[index]? = some _ := List.getElem?_eq_getElem (upTo.trans_lt fits)
  -- over rational numbers every value has a pixel, and the window does not leave the series
  refine ⟨(_, columnText o _), ?_, _, _, drawn, column, rfl⟩
  simp only [columnLabel?, drawn, column]

theorem columnLabels_spaced {s : Scene Rat} (o : Options Rat) {low high : Rat} {w : Window}
    (shown : s.window = some w) (range : s.xScale.range = some (low, high))
    (fits : w.last < s.data.length) :
    List.Forall₂ (LabelsColumn o s) (w.everyNth (stride w.size (columnTicks s)))
      ((columnLabels o s).map (beneath s)) := by
  simp only [columnLabels, shown, List.forall₂_map_right_iff]
  apply forall₂_filterMap
  intro index member
  exact columnLabel_some o range fits index (w.contains_of_everyNth _ member)

/-! ### Rungs -/

def rungTicks (s : Scene Rat) : Nat := tickTarget s.box.height (48.0 * s.pixelRatio)

/-- From one tick to the next, if a length is divided by so many of them. -/
def tickGap (length : Rat) (ticks : Nat) : Rat := length / (ticks - 1)

def beside (s : Scene Rat) (l : Rat × String) : Label Rat :=
  ⟨l.2, s.box.left - 6.0 * s.pixelRatio, l.1, 11.0 * s.pixelRatio, color, .right⟩

/-- The labels of the rungs: none on a degenerate axis, one halfway up for a range without a span,
and else as many as there is room for. They are evenly spaced, with the low end at the bottom of the
plot and the high end at its top. -/
structure RungsCovered (s : Scene Rat) (labels : List (Label Rat)) : Prop where
  room : 2 ≤ rungTicks s ∧ rungTicks s ≤ 12
  ordered : ∀ low high, s.yScale.range = some (low, high) → low ≤ high
  degenerate : s.yScale.isDegenerate = true → labels = []
  flat : ∀ v, s.yScale.range = some (v, v) →
    labels = [beside s (s.box.top + s.box.height / 2, valueText v 0)]
  spaced : ∀ low high, s.yScale.range = some (low, high) → low < high →
    let step := tickGap (high - low) (rungTicks s)
    labels = (List.range (rungTicks s)).map fun k : Nat => beside s
      (s.box.bottom - tickGap s.box.height (rungTicks s) * k, valueText (low + step * k) step)
  ends : ∀ low high, s.yScale.range = some (low, high) → low < high →
    let step := tickGap (high - low) (rungTicks s)
    labels.length = rungTicks s ∧
      labels.head? = some (beside s (s.box.bottom, valueText low step)) ∧
      labels.getLast? = some (beside s (s.box.top, valueText high step))

theorem rungPixel_range {s : Scene Rat} {low high : Rat} (range : s.yScale.range = some (low, high))
    (value : Rat) : s.rungPixel? value =
      some (s.box.top + (1 - Scale.fraction low high value) * s.box.height) := by
  simp only [Scene.rungPixel?, Scale.pixel?, range, Scalar.isFinite_rat, if_true, Scale.place,
    Scalar.one_rat]

section Ticks
variable {low high : Rat} {ticks : Nat} (room : 2 ≤ ticks)
include room

theorem parts_pos : (0 : Rat) < (ticks : Rat) - 1 := by
  have more : (2 : Rat) ≤ ticks := by exact_mod_cast room
  linarith

theorem tickGap_last (length : Rat) : tickGap length ticks * (ticks - 1 : Nat) = length := by
  have parts := parts_pos room
  rw [tickGap, Nat.cast_sub (by omega), Nat.cast_one, div_mul_cancel₀ _ parts.ne']

theorem tickGap_ofNat (length : Rat) :
    length / Scalar.ofNat (ticks - 1) = tickGap length ticks := by
  rw [Scalar.ofNat_rat, Nat.cast_sub (by omega), Nat.cast_one, tickGap]

variable (spans : low < high)
include spans

theorem tickValues_span : tickValues low (tickGap (high - low) ticks) ticks =
    (List.range ticks).map fun k : Nat => low + tickGap (high - low) ticks * k := by
  have positive : 0 < tickGap (high - low) ticks := div_pos (sub_pos.mpr spans) (parts_pos room)
  simp only [tickValues, Scalar.zero_rat, not_le.mpr positive, if_false, positive, if_true]
  rfl

/-- Ticks that are evenly spaced in the range are evenly spaced on the axis. -/
theorem rungPixel_tick {s : Scene Rat} (range : s.yScale.range = some (low, high)) (k : Nat) :
    s.rungPixel? (low + tickGap (high - low) ticks * k) =
      some (s.box.bottom - tickGap s.box.height ticks * k) := by
  have parts := (parts_pos room).ne'
  have span : high - low ≠ 0 := (sub_pos.mpr spans).ne'
  rw [rungPixel_range range, Scale.fraction_span spans, Box.bottom, Option.some.injEq, tickGap,
    tickGap]
  field_simp
  ring

end Ticks

theorem two_le_rungTicks (s : Scene Rat) : 2 ≤ rungTicks s := (tickTarget_bounds _ _).1

theorem rungLabels_flat {s : Scene Rat} {v : Rat} (range : s.yScale.range = some (v, v)) :
    rungLabels s = [(s.box.top + s.box.height / 2, valueText v 0)] := by
  -- a step of no length writes the one value, in the middle as every value of such a range
  have none : (v - v) / Scalar.ofNat (tickTarget s.box.height (48.0 * s.pixelRatio) - 1) =
      (0 : Rat) := by rw [sub_self, zero_div]
  have middle : Scale.fraction v v v = 1 / 2 := by
    simp only [Scale.fraction, sub_self, Scalar.zero_rat, lt_irrefl, if_false]
    norm_num
  have halfway : s.rungPixel? v = some (s.box.top + s.box.height / 2) := by
    rw [rungPixel_range range, middle]
    ring_nf
  simp only [rungLabels, range, none, tickValues, Scalar.zero_rat, le_refl, if_true,
    List.filterMap_cons, List.filterMap_nil, halfway, Option.map_some]

theorem rungLabels_span {s : Scene Rat} {low high : Rat} (range : s.yScale.range = some (low, high))
    (spans : low < high) : rungLabels s = (List.range (rungTicks s)).map fun k : Nat =>
      (s.box.bottom - tickGap s.box.height (rungTicks s) * k,
        valueText (low + tickGap (high - low) (rungTicks s) * k)
          (tickGap (high - low) (rungTicks s))) := by
  have room := two_le_rungTicks s
  have same : tickTarget s.box.height (48.0 * s.pixelRatio) = rungTicks s := rfl
  simp only [rungLabels, range, same, tickGap_ofNat room, tickValues_span room spans,
    List.filterMap_map, Function.comp_def, rungPixel_tick room spans range, Option.map_some]
  exact congrFun List.filterMap_eq_map' _

/-! ### All labels -/

/-- What the labels rely on: there is a window that fits the data, if the columns have a range; and
the range of the rungs is in order. -/
structure Writable (s : Scene Rat) : Prop where
  columns : s.xScale.isDegenerate = false → ∃ w, s.window = some w ∧ w.last < s.data.length
  rungs : ∀ low high, s.yScale.range = some (low, high) → low ≤ high

theorem columns_covered {s : Scene Rat} (o : Options Rat) (writable : Writable s) :
    ColumnsCovered o s ((columnLabels o s).map (beneath s)) where
  room := tickTarget_bounds _ _
  degenerate := by
    intro degenerate
    have none : s.xScale.range = none := Option.isNone_iff_eq_none.mp degenerate
    unfold columnLabels
    cases s.window with
    | none => rfl
    | some w => simp [columnLabel_none o none]
  spaced := by
    intro regular
    obtain ⟨w, shown, fits⟩ := writable.columns regular
    obtain ⟨⟨low, high⟩, range⟩ :=
      Option.isSome_iff_exists.mp (Option.isNone_eq_false_iff.mp regular)
    have room : 0 < columnTicks s := Nat.lt_of_lt_of_le (by decide) (tickTarget_bounds _ _).1
    have labels := columnLabels_spaced o shown range fits
    refine ⟨w, _, shown, one_le_stride w.size, labels, ?_, ?_, ?_⟩
    · rw [← labels.length_eq]
      exact reached_le room w
    · intro few
      rw [stride_few room few, w.everyNth_one]
    · intro many
      rw [← labels.length_eq]
      exact le_reached room w many

theorem rungs_covered {s : Scene Rat} (writable : Writable s) :
    RungsCovered s ((rungLabels s).map (beside s)) where
  room := tickTarget_bounds _ _
  ordered := writable.rungs
  degenerate := by
    intro degenerate
    have none : s.yScale.range = none := Option.isNone_iff_eq_none.mp degenerate
    simp only [rungLabels, none, List.map_nil]
  flat := by
    intro v range
    rw [rungLabels_flat range, List.map_singleton]
  spaced := by
    intro low high range spans
    rw [rungLabels_span range spans, List.map_map]
    rfl
  ends := by
    intro low high range spans
    have room := two_le_rungTicks s
    have filled : rungTicks s ≠ 0 := by omega
    have top : s.box.bottom - s.box.height = s.box.top := add_sub_cancel_right _ _
    rw [rungLabels_span range spans]
    refine ⟨by simp, ?_, ?_⟩
    · simp only [List.head?_map, List.head?_range, if_neg filled, Option.map_some, Nat.cast_zero,
        mul_zero, sub_zero, add_zero]
    · simp only [List.getLast?_map, List.getLast?_range, if_neg filled, Option.map_some,
        tickGap_last room, top, add_sub_cancel]

def titleLabels (o : Options Rat) (s : Scene Rat) : List (Label Rat) :=
  if o.title.isEmpty then []
  else [⟨o.title, Box.ofWord s.viewport.width / 2.0, 6.0 * s.pixelRatio, 16.0 * s.pixelRatio,
    color, .center⟩]

/-- After the title, if there is one, come the labels of both axes; others may follow. -/
def Covered (o : Options Rat) (s : Scene Rat) (labels : List (Label Rat)) : Prop :=
  ∃ columns rungs others, labels = titleLabels o s ++ columns ++ rungs ++ others ∧
    ColumnsCovered o s columns ∧ RungsCovered s rungs

theorem covered {o : Options Rat} {s : Scene Rat} {written : List (Label Rat)}
    (writable : Writable s) (first : labels o s <+: written) : Covered o s written := by
  obtain ⟨others, rfl⟩ := first
  exact ⟨_, _, others, rfl, columns_covered o writable, rungs_covered writable⟩

end Axes
end LadderChart
