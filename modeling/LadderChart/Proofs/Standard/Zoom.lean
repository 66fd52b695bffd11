import LadderChart.Proofs.Data.Slice
import LadderChart.Proofs.Number.Round
import LadderChart.Proofs.Standard.Rebuild

/-!
A window on the data shows what a chart of the slice in that window shows. Columns keep their places
when they are counted anew: by value nothing is counted, and by index both bounds of the axis are
shifted with the columns. Shifting goes through the exact difference of indices, so columns spaced
evenly are treated over rational numbers.
-/

namespace LadderChart

/-- A window brings the index nearest to a value into it, wherever it is counted from. -/
theorem Window.clamp_shift (w : Window) (word : w.last ≤ Scalar.largestIndex) (q : Rat) :
    w.clamp (Scalar.nearestIndex (w.first + q)) =
      w.first + w.fromZero.clamp (Scalar.nearestIndex q) := by
  have ordered := w.ordered
  have shifted := Rounding.awayFromZero_natCast_add w.first q
  rw [Scalar.nearestIndex_rat, Scalar.nearestIndex_rat]
  simp only [clamp, fromZero_first, fromZero_last, span]
  omega

def Cell.recount {α : Type} (first : Nat) (c : Cell α) : Cell α :=
  { c with index := first + c.index }

namespace Hit
variable {α : Type} [Scalar α]

theorem nearest_map {τ υ : Type} (f : τ → υ) (distance : υ → α) (candidates : List τ) :
    nearest? distance (candidates.map f) =
      (nearest? (fun x => distance (f x)) candidates).map f := by
  induction candidates with
  | nil => rfl
  | cons x rest ih =>
      simp only [List.map_cons, nearest?, ih]
      cases nearest? (fun x => distance (f x)) rest with
      | none => rfl
      | some best =>
          simp only [Option.map_some]
          split <;> rfl

theorem column_slice (series : List α) (w : Window) (value : α) :
    column? .linear series w value =
      (column? .linear (w.slice series) w.fromZero value).map (w.first + ·) := by
  have pairs : w.indices.zip (w.slice series) =
      (w.fromZero.indices.zip (w.slice series)).map (Prod.map (w.first + ·) id) := by
    rw [w.indices_shift, List.zip_map_left]
  simp only [column?, pairs, nearest_map, w.fromZero_slice, Option.map_map]
  rfl

end Hit

namespace Scale
variable {α : Type} [inst : Scalar α]

/-- The x scales of the whole and of the slice: by value they are the same, by index the bounds are
counted anew. -/
inductive Recounted (w : Window) : Scale α → Scale α → Prop
  | byValue (range : Option (α × α)) : Recounted w ⟨.linear, range⟩ ⟨.linear, range⟩
  | byIndex (exact : Scalar.Exact α inst) :
      Recounted w ⟨.ordinal, some (Scalar.ofNat w.first, Scalar.ofNat w.last)⟩
        ⟨.ordinal, some (Scalar.ofNat 0, Scalar.ofNat w.span)⟩

theorem span_rat (w : Window) : (w.last : Rat) - w.first = w.span := by
  rw [Window.span, Nat.cast_sub w.ordered]

variable {w : Window} {s t : Scale α}

theorem Recounted.distribution (recounted : Recounted w s t) : t.distribution = s.distribution := by
  cases recounted <;> rfl

theorem Recounted.column (recounted : Recounted w s t) (box : Box α) (series : List α) (k : Nat)
    (inside : k < w.size) :
    (domainValue? t.distribution k (w.slice series)).bind (t.pixel? .x box) =
      (domainValue? s.distribution (w.first + k) series).bind (s.pixel? .x box) := by
  cases recounted with
  | byValue range => simp only [domainValue?, w.getElem_slice series k inside]
  | byIndex exact =>
      cases exact
      have whole : ((w.first + k : Nat) : Rat) - w.first = k := by push_cast; ring
      have part : (k : Rat) - (0 : Nat) = k := by norm_num
      have width : (w.span : Rat) - (0 : Nat) = w.span := by norm_num
      simp only [domainValue?, Option.bind_some, pixel?, fraction, Scalar.ofNat_rat, span_rat,
        Scalar.isFinite_rat, if_true, whole, part, width]

theorem Recounted.hit (recounted : Recounted w s t) (word : w.last ≤ Scalar.largestIndex)
    (box : Box α) (series : List α) (pixel : α) :
    (s.value? .x box pixel).bind (Hit.column? s.distribution series w) =
      ((t.value? .x box pixel).bind (Hit.column? t.distribution (w.slice series) w.fromZero)).map
        (w.first + ·) := by
  cases recounted with
  | byValue range =>
      cases (⟨.linear, range⟩ : Scale α).value? .x box pixel with
      | none => rfl
      | some value => exact Hit.column_slice series w value
  | byIndex exact =>
      cases exact
      have shifted : (⟨.ordinal, some ((w.first : Rat), (w.last : Rat))⟩ : Scale Rat).value? .x box
          pixel = ((⟨.ordinal, some (((0 : Nat) : Rat), (w.span : Rat))⟩ : Scale Rat).value? .x box
            pixel).map ((w.first : Rat) + ·) := by
        have width : (w.span : Rat) - (0 : Nat) = w.span := by norm_num
        simp only [value?, span_rat, width, Scalar.isFinite_rat, if_true]
        split
        · simp
        · simp
      simp only [Scalar.ofNat_rat, shifted]
      cases (⟨.ordinal, some (((0 : Nat) : Rat), (w.span : Rat))⟩ : Scale Rat).value? .x box pixel
      · rfl
      · exact congrArg some (w.clamp_shift word _)

end Scale

namespace Scene
variable {α : Type} [Scalar α]

/-- All of the data with a window on them, and the slice in that window, in one plot. -/
structure Sliced (w : Window) (s t : Scene α) : Prop where
  viewport : t.viewport = s.viewport
  pixelRatio : t.pixelRatio = s.pixelRatio
  box : t.box = s.box
  data : t.data = s.data.slice w
  whole : s.window = some w
  part : t.window = some w.fromZero
  xScale : Scale.Recounted w s.xScale t.xScale
  yScale : t.yScale = s.yScale

variable {w : Window} {s t : Scene α} (sliced : Sliced w s t)
include sliced

theorem Sliced.column (k : Nat) (inside : k < w.size) :
    t.columnPixel? k = s.columnPixel? (w.first + k) := by
  simp only [columnPixel?, sliced.box, sliced.data]
  exact sliced.xScale.column s.box s.data.series k inside

theorem Sliced.rung : t.rungPixel? = s.rungPixel? := by
  funext rung
  simp only [rungPixel?, sliced.yScale, sliced.box]

theorem Sliced.pitch : t.pitch? = s.pitch? := by
  simp only [pitch?, sliced.whole, sliced.part, sliced.box]
  rfl

theorem Sliced.columnLabels (o : Options α) : Axes.columnLabels o t = Axes.columnLabels o s := by
  simp only [Axes.columnLabels, sliced.whole, sliced.part, sliced.box, sliced.pixelRatio,
    w.everyNth_shift, List.filterMap_map, Window.fromZero_size]
  apply List.filterMap_congr
  intro k member
  have inside := w.lt_size_of_mem_everyNth _ k member
  simp only [Function.comp_apply, Axes.columnLabel?, sliced.column k inside, sliced.data,
    Dataset.slice, w.getElem_slice _ k inside]

theorem Sliced.rungLabels : Axes.rungLabels t = Axes.rungLabels s := by
  simp only [Axes.rungLabels, sliced.yScale, sliced.box, sliced.pixelRatio, sliced.rung]

theorem Sliced.axes (o : Options α) : Axes.strokes o t = Axes.strokes o s := by
  simp only [Axes.strokes, Axes.titleStrokes, sliced.columnLabels o, sliced.rungLabels,
    sliced.viewport, sliced.box, sliced.pixelRatio]

theorem Sliced.columnCells (style : LadderStyle α) (width : α) (k : Nat) (inside : k < w.size) :
    style.columnCells s width (w.first + k) =
      (style.columnCells t width k).map (Cell.recount w.first) := by
  simp only [LadderStyle.columnCells, sliced.column k inside, sliced.data,
    Dataset.rungsAt_slice _ _ k inside, Dataset.weightsAt_slice _ _ k inside]
  cases s.columnPixel? (w.first + k) with
  | none => rfl
  | some centre =>
      simp only [List.map_filterMap]
      congr 1
      funext entry
      simp only [LadderStyle.cell?, sliced.rung, sliced.data, Option.map_map]
      rfl

/-- The cells of a slice are those of the window, with the columns counted anew. -/
theorem Sliced.cells (style : LadderStyle α) :
    style.cells s = (style.cells t).map (Cell.recount w.first) := by
  have pitch := sliced.pitch
  simp only [LadderStyle.cells, sliced.whole, sliced.part, pitch]
  cases s.pitch? with
  | none => rfl
  | some pitch =>
      simp only [w.indices_shift, List.flatMap_map, List.map_flatMap]
      apply List.flatMap_congr
      intro k member
      exact sliced.columnCells style _ k (w.lt_size_of_mem_indices k member)

theorem Sliced.picture (o : Options α) : Engine.picture o t = Engine.picture o s := by
  have strokes : (LadderStyle.standard.cells s).flatMap LadderStyle.strokes =
      (LadderStyle.standard.cells t).flatMap LadderStyle.strokes := by
    rw [sliced.cells, List.flatMap_map]
    rfl
  simp only [Engine.picture, sliced.axes o, strokes]

theorem Sliced.indexAt (word : w.last ≤ Scalar.largestIndex) (x y : α) :
    s.indexAt? x y = (t.indexAt? x y).map (w.first + ·) := by
  have canvasX : t.canvasX x = s.canvasX x := by
    simp only [Scene.canvasX, sliced.box, sliced.pixelRatio]
  have canvasY : t.canvasY y = s.canvasY y := by
    simp only [Scene.canvasY, sliced.box, sliced.pixelRatio]
  simp only [indexAt?, sliced.whole, sliced.part, sliced.box, sliced.data, canvasX, canvasY]
  split
  · exact sliced.xScale.hit word s.box s.data.series (s.canvasX x)
  · rfl

end Scene

namespace Engine
variable {ρ α : Type} [inst : Scalar α]

section Axes
variable (o : Options α) (data : Dataset α) (w : Window) (inside : w.last < data.length)
include inside

theorem resolveAxis_columns (builtin : ∀ x, o.scales.get? Axis.x.key = some x → x.rule = none)
    (exact : distributionOf o .x = .ordinal → Scalar.Exact α inst) :
    Scale.Recounted w (resolveAxis o data (some w) .x)
      (resolveAxis o (data.slice w) (some w.fromZero) .x) := by
  simp only [resolveAxis]
  cases found : o.scales.get? Axis.x.key with
  | none => exact .byValue none
  | some x =>
      simp only [builtin x found]
      cases spacing : x.distribution with
      | linear =>
          have same := Scale.columnRange_slice data.series w inside
          simp only [Scale.builtinRange, Dataset.slice, same]
          exact .byValue _
      | ordinal => exact .byIndex (exact (by simp [distributionOf, found, spacing]))

omit inside in
theorem resolveAxis_rungs (ladder : ∀ y, o.scales.get? Axis.y.key = some y →
      y.rule = none ∨ y.rule = some Options.ladderRule) :
    resolveAxis o (data.slice w) (some w.fromZero) .y = resolveAxis o data (some w) .y := by
  have same := Scale.ladderRange_slice data.ladders w
  simp only [resolveAxis]
  cases found : o.scales.get? Axis.y.key with
  | none => rfl
  | some y =>
      rcases ladder y found with builtin | rule
      · simp only [builtin, Scale.builtinRange, Dataset.slice, same]
      · simp only [rule, Options.ladderRule, Dataset.slice, same]

end Axes

variable {backend : Backend ρ α} {screen : ρ} {o : Options α} {data : Dataset α}
  {first e : Engine Band ρ α}

/-- An engine that looks at a window, and one that is laid out on the slice in it. -/
theorem look_sliced (setting : SameSetting first e)
    (start : LaidOut backend screen (.standard o) data first) (screen' : ρ) (w : Window)
    (inside : w.last < e.scene.data.length)
    (columns : ∀ x, o.scales.get? Axis.x.key = some x → x.rule = none)
    (ladder : ∀ y, o.scales.get? Axis.y.key = some y →
      y.rule = none ∨ y.rule = some Options.ladderRule)
    (exact : distributionOf o .x = .ordinal → Scalar.Exact α inst) :
    Scene.Sliced w (e.look w).resolveScales.scene
      (first.laidFor screen' (e.scene.data.slice w)).resolveScales.scene := by
  have part : Window.full? (e.scene.data.slice w).length = some w.fromZero := by
    rw [e.scene.data.length_slice w inside, w.full_size]
  -- the highlight changes the crosshair only, so both have the scales that were asked for
  have scales : first.options.scales = o.scales := by
    rw [start.standard.2.1]
    rfl
  constructor
  · exact (start.sized setting).1.symm
  · exact (start.sized setting).2.symm
  · exact setting.box.symm
  · rfl
  · rfl
  · exact part
  · have recounted := resolveAxis_columns first.options e.scene.data w inside
      (by rw [scales]; exact columns) (by rw [distributionOf, scales]; exact exact)
    simp only [resolveScales, laidFor, firstScene, look, setting.options, part]
    exact recounted
  · have same := resolveAxis_rungs first.options e.scene.data w (by rw [scales]; exact ladder)
    simp only [resolveScales, laidFor, firstScene, look, setting.options, part]
    exact same

/-- The columns spaced evenly, over rational numbers. -/
def evenChart : Opening Band (Recorder Rat) Rat :=
  openWith Recorder.backend .fresh (.standard (Options.standard.setSpacing .ordinal)) gappedColumns

end Engine
end LadderChart
