import LadderChart.Plugin.Band
import LadderChart.Proofs.Engine.Aim

/-!
One chart at two pixel ratios, over rational numbers. Places on the canvas are scaled by the factor
between the ratios, and whatever is a quotient of two lengths stays what it is: where a pointer
reads an axis, how many ticks there are, where the band stands on the page.
-/

namespace LadderChart

def Box.scale (k : Rat) (b : Box Rat) : Box Rat :=
  ⟨k * b.left, k * b.top, k * b.width, k * b.height⟩

def Rect.scale (k : Rat) (r : Rect Rat) : Rect Rat :=
  { r with x := k * r.x, y := k * r.y, width := k * r.width, height := k * r.height }

def Label.scale (k : Rat) (l : Label Rat) : Label Rat :=
  { l with x := k * l.x, y := k * l.y, size := k * l.size }

theorem Viewport.check_rat (v : Viewport) : v.check = .ok () ↔
    (0 : Rat) < Box.ofWord v.width ∧ (0 : Rat) < Box.ofWord v.height := by
  have filled : ∀ n : UInt32, (0 : Rat) < Box.ofWord n ↔ n ≠ 0 := by
    intro n
    rw [Box.ofWord, Scalar.ofNat_rat, Nat.cast_pos, Nat.pos_iff_ne_zero, ne_eq, ne_eq,
      ← UInt32.toNat_inj]
    rfl
  rw [filled, filled, check, ← not_or]
  split
  · rename_i empty
    refine ⟨?_, fun full => absurd empty full⟩
    intro refused
    cases refused
  · rename_i full
    exact ⟨fun _ => full, fun _ => rfl⟩

namespace Box
variable {k : Rat}

theorem scale_bottom (b : Box Rat) : (b.scale k).bottom = k * b.bottom :=
  (mul_add k b.top b.height).symm

/-- On a canvas that is larger by a factor, the insets leave a plot that is. -/
theorem ofViewport_scale (positive : 0 < k) {v v' : Viewport} {insets : Insets Rat}
    {ratio : Rat} {b : Box Rat} (width : (ofWord v'.width : Rat) = k * ofWord v.width)
    (height : (ofWord v'.height : Rat) = k * ofWord v.height)
    (laid : ofViewport v insets ratio = .ok b) :
    ofViewport v' insets (k * ratio) = .ok (b.scale k) := by
  obtain ⟨canvas, sides, same, wide, tall⟩ := ofViewport_eq_ok laid
  have canvas' : v'.check = .ok () := by
    rw [Viewport.check_rat] at canvas ⊢
    rw [width, height]
    exact ⟨mul_pos positive canvas.1, mul_pos positive canvas.2⟩
  rw [Scalar.zero_rat, not_le] at wide tall
  have wide' := mul_pos positive wide
  have tall' := mul_pos positive tall
  subst same
  simp only [mul_sub, mul_left_comm k] at wide' tall'
  have large : ¬ ((ofWord v'.width - insets.left * (k * ratio) - insets.right * (k * ratio) : Rat) ≤
      0.0 ∨ (ofWord v'.height - insets.top * (k * ratio) - insets.bottom * (k * ratio) : Rat) ≤
        0.0) := by
    rw [Scalar.zero_rat, not_or, not_le, not_le, width, height]
    exact ⟨wide', tall'⟩
  simp only [ofViewport, canvas', sides, bind, Except.bind, if_neg large]
  simp only [scale, mul_sub, mul_left_comm k, width, height]
  rfl

end Box

namespace Options
variable (o : Options Rat)

/-- The same chart at another pixel ratio. -/
def atRatio (ratio : Rat) : Options Rat := { o with pixelRatio := ratio }

/-- Width and height come to whole numbers of device pixels, few enough for words of 32 bits. -/
def Whole : Prop :=
  ∃ v : Viewport, (Box.ofWord v.width : Rat) = Box.ofWord o.width * o.pixelRatio ∧
    (Box.ofWord v.height : Rat) = Box.ofWord o.height * o.pixelRatio

/-- A position over the plot, in page pixels from its corner. -/
structure OnPlot (x y : Rat) : Prop where
  left : 0 ≤ x
  right : x ≤ Box.ofWord o.width - o.insets.left - o.insets.right
  top : 0 ≤ y
  bottom : y ≤ Box.ofWord o.height - o.insets.top - o.insets.bottom

theorem devicePixels_whole {size n : UInt32} {ratio : Rat}
    (whole : (Box.ofWord n : Rat) = Box.ofWord size * ratio) : devicePixels size ratio = n := by
  have bound := n.toNat_lt
  have exact : Scalar.nearest (Box.ofWord size * ratio : Rat) = (n.toNat : Int) := by
    rw [← whole]
    change Rounding.awayFromZero (n.toNat : Rat) = _
    rw [Rounding.awayFromZero_of_nonneg _ (Nat.cast_nonneg _), Int.floor_natCast_add]
    norm_num
  simp only [devicePixels, Scalar.isFinite_rat, if_true, exact, Int.toNat_natCast,
    UInt32.ofNat_toNat]
  split
  · rfl
  · -- only none at all is left out
    have zero : n.toNat = 0 := by omega
    exact (UInt32.toNat_inj.mp zero).symm

theorem Whole.viewport {o : Options Rat} (whole : o.Whole) :
    (Box.ofWord o.viewport.width : Rat) = Box.ofWord o.width * o.pixelRatio ∧
      (Box.ofWord o.viewport.height : Rat) = Box.ofWord o.height * o.pixelRatio := by
  obtain ⟨v, width, height⟩ := whole
  simp only [Options.viewport, devicePixels_whole width, devicePixels_whole height]
  exact ⟨width, height⟩

theorem Whole.larger {o : Options Rat} {k : Rat} (whole : o.Whole)
    (whole' : (o.atRatio (k * o.pixelRatio)).Whole) :
    (Box.ofWord (o.atRatio (k * o.pixelRatio)).viewport.width : Rat) =
        k * Box.ofWord o.viewport.width ∧
      (Box.ofWord (o.atRatio (k * o.pixelRatio)).viewport.height : Rat) =
        k * Box.ofWord o.viewport.height := by
  obtain ⟨width, height⟩ := whole.viewport
  obtain ⟨width', height'⟩ := whole'.viewport
  rw [width, height, width', height', mul_left_comm, mul_left_comm k (Box.ofWord o.height)]
  exact ⟨rfl, rfl⟩

end Options

namespace Scale
variable {k : Rat} (s : Scale Rat) (axis : Axis) (box : Box Rat)

theorem place_scale (share : Rat) : place axis (box.scale k) share = k * place axis box share := by
  cases axis with
  | x =>
      rw [place, place, mul_add, mul_left_comm k]
      rfl
  | y =>
      rw [place, place, mul_add, mul_left_comm k]
      rfl

theorem pixel_scale (x : Rat) :
    s.pixel? axis (box.scale k) x = (s.pixel? axis box x).map (k * ·) := by
  unfold pixel?
  cases s.range with
  | none => rfl
  | some bounds => simp only [Scalar.isFinite_rat, if_true, Option.map_some, place_scale]

variable (positive : 0 < k)
include positive

theorem unplace_scale (pixel : Rat) :
    unplace axis (box.scale k) (k * pixel) = unplace axis box pixel := by
  cases axis with
  | x => simp only [unplace, Box.scale, ← mul_sub, mul_div_mul_left _ _ positive.ne']
  | y => simp only [unplace, Box.scale, ← mul_sub, mul_div_mul_left _ _ positive.ne']

/-- The value under a pixel is the same one at the other ratio. -/
theorem value_scale (pixel : Rat) :
    s.value? axis (box.scale k) (k * pixel) = s.value? axis box pixel := by
  simp only [value?, unplace_scale axis box positive, Scalar.isFinite_rat]

end Scale

namespace Scene
variable {k : Rat}

/-- The same chart with the same pointer, on a canvas that is larger by a factor. -/
structure Rescaled (k : Rat) (s t : Scene Rat) : Prop where
  width : (Box.ofWord t.viewport.width : Rat) = k * Box.ofWord s.viewport.width
  pixelRatio : t.pixelRatio = k * s.pixelRatio
  box : t.box = s.box.scale k
  data : t.data = s.data
  window : t.window = s.window
  xScale : t.xScale = s.xScale
  yScale : t.yScale = s.yScale
  cursor : t.cursor = s.cursor

/-- The pointer is over the plot. -/
structure Beneath (s : Scene Rat) (x y : Rat) : Prop where
  left : 0 ≤ x * s.pixelRatio
  right : x * s.pixelRatio ≤ s.box.width
  top : 0 ≤ y * s.pixelRatio
  bottom : y * s.pixelRatio ≤ s.box.height

theorem Beneath.within {s : Scene Rat} {x y : Rat} (beneath : s.Beneath x y) :
    Hit.Within s.box (s.canvasX x) (s.canvasY y) := by
  obtain ⟨left, right, top, bottom⟩ := beneath
  have some : (0 : Rat) < Hit.tolerance := by norm_num [Hit.tolerance]
  simp only [Hit.Within, canvasX, canvasY, Box.right, Box.bottom]
  refine ⟨?_, ?_, ?_, ?_⟩ <;> linarith

variable {s t : Scene Rat}

theorem Beneath.same {x y : Rat} (there : s.Beneath x y) (ratio : t.pixelRatio = s.pixelRatio)
    (box : t.box = s.box) : t.Beneath x y := by
  obtain ⟨left, right, top, bottom⟩ := there
  rw [← ratio] at left right top bottom
  rw [← box] at right bottom
  exact ⟨left, right, top, bottom⟩

namespace Rescaled
variable (rescaled : Rescaled k s t)
include rescaled

theorem length (size : Rat) : size * t.pixelRatio = k * (size * s.pixelRatio) := by
  rw [rescaled.pixelRatio, mul_left_comm]

theorem canvasX (x : Rat) : t.canvasX x = k * s.canvasX x := by
  rw [Scene.canvasX, Scene.canvasX, rescaled.box, rescaled.length, mul_add]
  rfl

theorem canvasY (y : Rat) : t.canvasY y = k * s.canvasY y := by
  rw [Scene.canvasY, Scene.canvasY, rescaled.box, rescaled.length, mul_add]
  rfl

theorem columnPixel (index : Nat) : t.columnPixel? index = (s.columnPixel? index).map (k * ·) := by
  simp only [columnPixel?, rescaled.xScale, rescaled.data, rescaled.box]
  cases Scale.domainValue? s.xScale.distribution index s.data.series with
  | none => rfl
  | some v => exact s.xScale.pixel_scale .x s.box v

theorem rungPixel (rung : Rat) : t.rungPixel? rung = (s.rungPixel? rung).map (k * ·) := by
  simp only [rungPixel?, rescaled.yScale, rescaled.box]
  exact s.yScale.pixel_scale .y s.box rung

theorem pitch : t.pitch? = s.pitch?.map (k * ·) := by
  simp only [pitch?, rescaled.window, rescaled.box]
  cases s.window with
  | none => rfl
  | some w => simp only [Option.map_some, Scale.pitch, Box.scale, mul_div_assoc]

theorem column (index : Option Nat) : BandLook.column? t index =
    (BandLook.column? s index).map (Prod.map (k * ·) (k * ·)) := by
  cases index with
  | none => rfl
  | some i =>
      simp only [BandLook.column?, rescaled.pitch, rescaled.columnPixel]
      cases s.pitch? with
      | none => rfl
      | some pitch => cases s.columnPixel? i <;> rfl

variable (positive : 0 < k)
include positive

theorem beneath {x y : Rat} (there : s.Beneath x y) : t.Beneath x y := by
  obtain ⟨left, right, top, bottom⟩ := there
  constructor
  · rw [rescaled.length]
    exact mul_nonneg positive.le left
  · rw [rescaled.length, rescaled.box]
    exact mul_le_mul_of_nonneg_left right positive.le
  · rw [rescaled.length]
    exact mul_nonneg positive.le top
  · rw [rescaled.length, rescaled.box]
    exact mul_le_mul_of_nonneg_left bottom positive.le

/-- Inside the plot a pointer finds the same column. The tolerance at its edge is a length on the
canvas, so it is wider or narrower on the page at the other ratio. -/
theorem indexAt {x y : Rat} (there : s.Beneath x y) : t.indexAt? x y = s.indexAt? x y := by
  have inside := (Hit.inside_iff _ _ _).mpr there.within
  have inside' := (Hit.inside_iff _ _ _).mpr (rescaled.beneath positive there).within
  simp only [indexAt?, inside, inside', if_true, rescaled.window, rescaled.data, rescaled.xScale]
  rw [rescaled.canvasX, rescaled.box, s.xScale.value_scale .x s.box positive]

theorem select {x y : Rat} (there : s.Beneath x y) : t.select? x y = s.select? x y := by
  simp only [select?, rescaled.indexAt positive there, rescaled.data, rescaled.yScale]
  rw [rescaled.canvasY, rescaled.box, s.yScale.value_scale .y s.box positive]

/-- The band stands at the same place on the page. -/
theorem placement (pitch centre : Rat) :
    BandLook.placement t (k * pitch) (k * centre) = BandLook.placement s pitch centre := by
  simp only [BandLook.placement, rescaled.box, rescaled.pixelRatio, Box.scale, ← mul_sub,
    mul_div_mul_left _ _ positive.ne']

end Rescaled
end Scene

namespace Axes
variable {k : Rat}

theorem tickTarget_scale (positive : 0 < k) (length spacing : Rat) :
    tickTarget (k * length) (k * spacing) = tickTarget length spacing := by
  have sign : k * length ≤ 0.0 ↔ length ≤ 0.0 := by
    rw [Scalar.zero_rat, ← not_lt, ← not_lt, mul_pos_iff_of_pos_left positive]
  simp only [tickTarget, sign, mul_div_mul_left _ _ positive.ne', Scalar.isFinite_rat]

/-- What is written: the title, then a label for every so many columns, then one for each tick. -/
def labels {α : Type} [Scalar α] (o : Options α) (s : Scene α) : List (Label α) :=
  (if o.title.isEmpty then []
    else [⟨o.title, Box.ofWord s.viewport.width / 2.0, 6.0 * s.pixelRatio, 16.0 * s.pixelRatio,
      color, .center⟩]) ++
  (columnLabels o s).map (fun l =>
    ⟨l.2, l.1, s.box.bottom + 6.0 * s.pixelRatio, 11.0 * s.pixelRatio, color, .center⟩) ++
  (rungLabels s).map (fun l =>
    ⟨l.2, s.box.left - 6.0 * s.pixelRatio, l.1, 11.0 * s.pixelRatio, color, .right⟩)

end Axes

namespace Scene.Rescaled
variable {k : Rat} {s t : Scene Rat} (rescaled : Rescaled k s t) (positive : 0 < k)
variable (o : Options Rat)
include rescaled positive

theorem columnLabels : Axes.columnLabels o t =
    (Axes.columnLabels o s).map fun l => (k * l.1, l.2) := by
  simp only [Axes.columnLabels, rescaled.window]
  cases s.window with
  | none => rfl
  | some w =>
      simp only [rescaled.length, rescaled.box, Box.scale, Axes.tickTarget_scale positive,
        List.map_filterMap]
      congr 1
      funext index
      simp only [Axes.columnLabel?, rescaled.columnPixel, rescaled.data]
      cases s.columnPixel? index with
      | none => rfl
      | some x => cases s.data.series[index]? <;> rfl

theorem rungLabels : Axes.rungLabels t = (Axes.rungLabels s).map fun l => (k * l.1, l.2) := by
  simp only [Axes.rungLabels, rescaled.yScale]
  cases s.yScale.range with
  | none => rfl
  | some bounds =>
      simp only [rescaled.length, rescaled.box, Box.scale, Axes.tickTarget_scale positive,
        List.map_filterMap]
      congr 1
      funext value
      rw [rescaled.rungPixel, Option.map_map, Option.map_map]
      rfl

/-- All texts are the same, in the same order; their places and sizes are scaled. -/
theorem labels : Axes.labels o t = (Axes.labels o s).map (Label.scale k) := by
  have below : t.box.bottom + k * (6.0 * s.pixelRatio) =
      k * (s.box.bottom + 6.0 * s.pixelRatio) := by
    rw [rescaled.box, Box.scale_bottom, mul_add]
  have beside : t.box.left - k * (6.0 * s.pixelRatio) = k * (s.box.left - 6.0 * s.pixelRatio) := by
    rw [rescaled.box, mul_sub]
    rfl
  have heading : (Box.ofWord t.viewport.width / 2.0 : Rat) =
      k * (Box.ofWord s.viewport.width / 2.0) := by
    rw [rescaled.width, mul_div_assoc]
  simp only [Axes.labels, rescaled.columnLabels positive, rescaled.rungLabels positive,
    rescaled.length, below, beside, heading, List.map_append, List.map_map]
  congr 2
  split <;> rfl

end Scene.Rescaled
end LadderChart
