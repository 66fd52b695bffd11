import LadderChart.Proofs.Plot.Ranged
import LadderChart.Proofs.Standard.Band
import LadderChart.Proofs.Standard.Zoom

/-!
The cells of the standard chart. On the main layer stands one cell for every rung in the window, in
the order of columns and rungs, in the heat of the weight paired with the rung, and nothing else.
Between calls the canvas is the picture of the scene as it is, so this holds whatever was called;
and without rounding every cell hangs in the plot.
-/

namespace LadderChart

/-! ### Rungs -/

/-- A rung of a column, with the weight paired with it. -/
structure Rung (α : Type) where
  index : Nat
  value : α
  weight : α

section Counting
variable {α : Type}

def Dataset.rungs (d : Dataset α) (index : Nat) : List (Rung α) :=
  ((d.rungsAt index).zip (d.weightsAt index)).map fun entry => ⟨index, entry.1, entry.2⟩

namespace Scene

def rungs (s : Scene α) : List (Rung α) :=
  match s.window with
  | none => []
  | some w => w.indices.flatMap s.data.rungs

def rungCount (s : Scene α) : Nat :=
  match s.window with
  | none => 0
  | some w => (w.indices.map fun index => (s.data.rungsAt index).length).sum

end Scene

variable [Scalar α]

theorem Dataset.Valid.paired {d : Dataset α} (valid : d.Valid) (index : Nat) :
    (d.rungsAt index).length = (d.weightsAt index).length := by
  unfold rungsAt weightsAt
  by_cases inside : index < d.length
  · have ladder : index < d.ladders.length := valid.ladders ▸ inside
    have weights : index < d.weights.length := valid.weights ▸ inside
    have column := valid.columns (d.ladders[index], d.weights[index])
      (List.mem_iff_getElem.mpr ⟨index, by rw [List.length_zip]; omega, by simp⟩)
    rw [List.getElem?_eq_getElem ladder, List.getElem?_eq_getElem weights]
    generalize d.ladders[index] = rungs at column
    generalize d.weights[index] = weights at column
    cases rungs <;> cases weights <;> simp_all [ColumnValid]
  · have ladder : d.ladders.length ≤ index := by rw [valid.ladders]; omega
    have weights : d.weights.length ≤ index := by rw [valid.weights]; omega
    rw [List.getElem?_eq_none ladder, List.getElem?_eq_none weights]

theorem Scene.length_rungs (s : Scene α) (valid : s.data.Valid) :
    s.rungs.length = s.rungCount := by
  have column : ∀ index, (s.data.rungs index).length = (s.data.rungsAt index).length := by
    intro index
    rw [Dataset.rungs, List.length_map, List.length_zip, ← valid.paired index, Nat.min_self]
  unfold rungs rungCount
  cases s.window with
  | none => rfl
  | some w => simp only [List.length_flatMap, column]

/-! ### Cells -/

/-- A cell of a rung: as wide as the body of its column and centred on it, hanging from the rung,
filled with the heat of the weight. -/
structure Scene.Fills (s : Scene α) (rung : Rung α) (r : Rect α) : Prop where
  column : ∃ centre, s.columnPixel? rung.index = some centre ∧ r.x = centre - r.width / 2.0
  width : s.pitch?.map LadderStyle.standard.bodyWidth = some r.width
  top : s.rungPixel? rung.value = some r.y
  height : r.height = LadderStyle.standard.cellHeight
  fill : r.fill = Heat.fill rung.weight s.data.colorRange

namespace LadderStyle
variable {s : Scene α}

theorem columnCells_fill {index : Nat} {centre pitch : α} (wide : s.pitch? = some pitch)
    (drawn : s.columnPixel? index = some centre)
    (placed : ∀ rung ∈ s.data.rungsAt index, ∃ y, s.rungPixel? rung = some y) :
    List.Forall₂ s.Fills (s.data.rungs index)
      ((LadderStyle.standard.columnCells s (LadderStyle.standard.bodyWidth pitch) index).map
        (·.rect)) := by
  have entries : ∀ entry ∈ (s.data.rungsAt index).zip (s.data.weightsAt index),
      ∃ y, s.rungPixel? entry.1 = some y := fun entry member =>
    placed entry.1 (List.of_mem_zip member).1
  simp only [columnCells, drawn, Dataset.rungs]
  generalize (s.data.rungsAt index).zip (s.data.weightsAt index) = column at entries ⊢
  induction column with
  | nil => exact .nil
  | cons entry rest ih =>
      obtain ⟨first, later⟩ := List.forall_mem_cons.mp entries
      obtain ⟨y, hangs⟩ := first
      simp only [List.map_cons, List.filterMap_cons, cell?, hangs, Option.map_some]
      refine .cons ⟨⟨centre, drawn, rfl⟩, ?_, hangs, rfl, rfl⟩ (ih later)
      rw [wide]
      rfl

/-- Where every column and every rung of the window has a place, no cell is left out. -/
theorem cells_fill
    (columns : ∀ w index, s.window = some w → w.contains index = true →
      ∃ centre, s.columnPixel? index = some centre)
    (placed : ∀ w index, s.window = some w → w.contains index = true →
      ∀ rung ∈ s.data.rungsAt index, ∃ y, s.rungPixel? rung = some y) :
    List.Forall₂ s.Fills s.rungs ((LadderStyle.standard.cells s).map (·.rect)) := by
  cases shown : s.window with
  | none =>
      simp only [Scene.rungs, cells, shown]
      exact .nil
  | some w =>
      have wide : s.pitch? = some (Scale.pitch w s.box) := by rw [Scene.pitch?, shown]; rfl
      simp only [Scene.rungs, cells, shown, wide]
      have inside : ∀ index ∈ w.indices, w.contains index = true := fun index =>
        (w.mem_indices index).mp
      generalize w.indices = indices at inside ⊢
      induction indices with
      | nil => exact .nil
      | cons index rest ih =>
          obtain ⟨first, later⟩ := List.forall_mem_cons.mp inside
          obtain ⟨centre, drawn⟩ := columns w index shown first
          have column := columnCells_fill wide drawn (placed w index shown first)
          simp only [List.flatMap_cons, List.map_append]
          exact List.rel_append column (ih later)

end LadderStyle
end Counting

/-! ### Ink -/

namespace Canvas
variable {α : Type}

def Bare : Stroke α → Prop
  | .rect _ _ _ _ => False
  | .scope _ => False
  | _ => True

theorem run_bare (c : Canvas α) (strokes : List (Stroke α)) (bare : ∀ s ∈ strokes, Bare s) :
    (run c strokes).ink.rects = c.ink.rects := by
  induction strokes generalizing c with
  | nil => rfl
  | cons stroke rest ih =>
      obtain ⟨first, later⟩ := List.forall_mem_cons.mp bare
      rw [run, ih _ later]
      cases stroke with
      | rect x y width height => cases first
      | scope body => cases first
      | restore => exact congrArg (·.rects) c.restore_ink
      | _ => rfl

theorem run_cells (c : Canvas α) (cells : List (Cell α)) :
    (run c (cells.flatMap LadderStyle.strokes)).ink =
      { c.ink with rects := c.ink.rects ++ cells.map (·.rect) } := by
  induction cells generalizing c with
  | nil => simp [run]
  | cons cell rest ih =>
      rw [List.flatMap_cons, run_append, ih]
      simp only [LadderStyle.strokes, run, apply, addRect, List.map_cons, List.append_assoc,
        List.singleton_append]

end Canvas

theorem Axes.strokes_bare {α : Type} [Scalar α] (o : Options α) (s : Scene α) :
    (Canvas.blank.run (Axes.strokes o s)).ink.rects = [] := by
  have title : ∀ stroke ∈ Axes.titleStrokes o s, Canvas.Bare stroke := by
    unfold Axes.titleStrokes
    split <;> simp [Canvas.Bare]
  simp only [Axes.strokes, Canvas.run, Canvas.apply, Canvas.restore_ink]
  rw [Canvas.run_bare]
  · rfl
  · simp only [List.forall_mem_append, List.forall_mem_cons, List.forall_mem_map]
    simpa [Canvas.Bare] using title

namespace Engine
variable {ρ α : Type} [Scalar α]

/-- The axes are lines and labels; the rectangles of a full pass are the cells. -/
theorem picture_rects (o : Options α) (s : Scene α) :
    (picture o s).ink.rects = (LadderStyle.standard.cells s).map (·.rect) := by
  have axes := Axes.strokes_bare o s
  simp only [picture, Canvas.resetStyle, Canvas.apply, Canvas.restore_ink, Canvas.run_cells,
    Canvas.save, axes, List.nil_append]

/-! ### Calls -/

/-- What holds between calls: scales and canvas belong to what is shown. -/
structure Pictured (e : Engine Band ρ α) : Prop where
  settled : e.scene.ScaledOn e.options e.scene.basis
  canvas : e.surfaces.canvas = picture e.options e.scene

/-- Besides, every full frame that was handed over shows the ink of the canvas. -/
structure Faithful (e : Engine Band ρ α) (frames : List (Handover α)) : Prop
    extends Pictured e where
  main : ∀ h ∈ frames, h.pass = .full → Display.inkOf h.frame .main = e.surfaces.canvas.ink

variable {e : Engine Band ρ α}

theorem Pictured.same {e' : Engine Band ρ α} (pictured : e.Pictured)
    (options : e'.options = e.options) (scene : ∃ cursor, e'.scene = { e.scene with cursor := cursor })
    (canvas : e'.surfaces.canvas = e.surfaces.canvas) : e'.Pictured := by
  obtain ⟨cursor, scene⟩ := scene
  constructor
  · rw [options, scene]
    exact ⟨pictured.settled.x, pictured.settled.y⟩
  · rw [options, scene, picture_cursor, canvas]
    exact pictured.canvas

theorem tell_canvas (e : Engine Band ρ α) : e.tell.surfaces.canvas = e.surfaces.canvas := by
  simp only [tell, BandLook.setCursor]
  split
  · rfl
  · split
    · rfl
    · split <;> rfl

theorem Pictured.tell (pictured : e.Pictured) : e.tell.Pictured :=
  pictured.same rfl ⟨_, rfl⟩ (tell_canvas e)

theorem Pictured.repaint (pictured : e.Pictured) :
    Faithful e.repaintIfDirty.engine e.repaintFrames := by
  unfold repaintIfDirty repaintFrames
  split
  · have kept : (e.repaint.engine).Pictured := pictured.same (accepted_steady e _).options
      ⟨e.scene.cursor, accepted_scene e _⟩ (accepted_canvas e _)
    exact ⟨kept, List.forall_mem_singleton.mpr fun full => by cases full⟩
  · exact ⟨pictured, by simp⟩

theorem pass_faithful (e : Engine Band ρ α) :
    Faithful e.sketch.paint.engine e.sketch.paintFrames := by
  have options := (accepted_steady e.sketch
    (e.sketch.backend.paint e.sketch.screen e.sketch.fullFrame)).options
  have scene := accepted_scene e.sketch
    (e.sketch.backend.paint e.sketch.screen e.sketch.fullFrame)
  have canvas := accepted_canvas e.sketch
    (e.sketch.backend.paint e.sketch.screen e.sketch.fullFrame)
  refine ⟨⟨?_, ?_⟩, List.forall_mem_singleton.mpr fun _ => ?_⟩
  · rw [paint, options, scene]
    exact resolve_scaled e
  · rw [paint, options, scene, canvas]
    rfl
  · rw [paint, canvas]
    exact (fullFrame_ink e.sketch (picture_kind _ _)).2.1

theorem announce_faithful (standard : e.Standard) (pictured : e.Pictured) :
    Faithful e.announce.engine e.announceFrames := by
  rw [announce_standard standard, announceFrames_standard standard]
  exact pictured.tell.repaint

theorem renew_faithful (standard : e.Standard) : Faithful e.renew.engine e.renewFrames := by
  rw [renew_standard standard, renewFrames_standard standard]
  exact pass_faithful e.tell

theorem Pictured.call {o : Options α} (pictured : e.Pictured) (standing : e.Standing o)
    (c : Call α) : Faithful (e.call c).engine (e.frames c) := by
  rw [call_eq, frames_eq]
  cases refused : e.refusal c with
  | some fault => exact ⟨pictured, by simp⟩
  | none =>
      have canvas := (turn_tracks e c).2.1
      have options := (turn_setting e c).1
      have standard : (e.turn c).Standard := (turn_setting e c).2.1.trans standing.plugins
      cases c with
      | enter => exact (pictured.same options ⟨_, rfl⟩ canvas).repaint
      | move x y =>
          exact announce_faithful standard
            (pictured.same options ⟨_, (turn_move e x y).1⟩ canvas)
      | leave => exact announce_faithful standard (pictured.same options ⟨_, rfl⟩ canvas)
      | setData data => exact renew_faithful standard
      | setWindow first last => exact renew_faithful standard
      | resetWindow =>
          rcases reset_cases e with ⟨empty, same⟩ | ⟨filled, w, same⟩
          · rw [same]
            simp only [follow, followFrames, if_pos empty]
            exact ⟨pictured, by simp⟩
          · rw [same] at standard ⊢
            have filled' : (e.look w).scene.data.length ≠ 0 := filled
            simp only [follow, followFrames, if_neg filled']
            exact renew_faithful standard
      | render =>
          simp only [follow, followFrames]
          rw [render_standard standard, renderFrames_standard standard]
          exact pass_faithful e

/-! ### Reachable engines -/

variable {backend : Backend ρ α} {screen : ρ} {o : Options α} {data : Dataset α}

theorem opened_faithful (opened : openWith backend screen (.standard o) data = .opened e) :
    Faithful e (openFrames backend screen (.standard o) data) := by
  obtain ⟨first, start, done⟩ := opened_cases opened
  obtain ⟨standard, _⟩ := start.standard
  rw [opening_standard standard] at done
  rw [openFrames_laid start, openingFrames_standard standard]
  have faithful := pass_faithful first.resolveScales.furnish
  rwa [done] at faithful

theorem reach_pictured (opened : openWith backend screen (.standard o) data = .opened e)
    (calls : List (Call α)) : (e.run calls).Pictured := by
  have standing := opened_standing opened
  have pictured := (opened_faithful opened).toPictured
  clear opened
  induction calls generalizing e with
  | nil => exact pictured
  | cons c rest ih => exact ih (standing.call c) (pictured.call standing c).toPictured

end Engine

/-! ### Without rounding -/

/-- Cells of any style hang in the plot. -/
theorem LadderStyle.cells_held (style : LadderStyle Rat) {s : Scene Rat} (plotted : s.Plotted)
    (enclosed : s.Enclosed) (c : Cell Rat) (member : c ∈ style.cells s) : s.box.Holds c.rect := by
  obtain ⟨pitch, centre, _, drawn, left, width, _, _, ⟨w, shown, inside⟩, rung, sited⟩ :=
    style.mem_cells s c member
  have middle : c.rect.centerX = centre := by
    rw [Rect.centerX, left, width]
    exact sub_add_cancel _ _
  obtain ⟨v, value, placed⟩ := Option.bind_eq_some_iff.mp drawn
  obtain ⟨low, high, range, _, across⟩ := Scale.pixel_cases placed
  obtain ⟨above, below⟩ := enclosed.columns w c.index v low high shown inside range value
  obtain ⟨least, most⟩ := Scale.fraction_between above below
  obtain ⟨left', right'⟩ := Box.place_across least most plotted.wide
  obtain ⟨low', high', range', _, down⟩ := Scale.pixel_cases sited
  obtain ⟨above', below'⟩ := enclosed.rungs w c.index c.rung low' high' shown inside range' rung
  obtain ⟨least', most'⟩ := Scale.fraction_between above' below'
  obtain ⟨top, bottom⟩ := Box.place_down least' most' plotted.tall
  rw [← across] at left' right'
  rw [← down] at top bottom
  constructor
  · rwa [middle]
  · rwa [middle]
  · exact top
  · exact bottom

namespace Engine
variable {ρ : Type} {backend : Backend ρ Rat} {screen : ρ} {o : Options Rat} {data : Dataset Rat}
  {e : Engine Band ρ Rat}

theorem reach_plotted (opened : openWith backend screen (.standard o) data = .opened e)
    (calls : List (Call Rat)) : (e.run calls).scene.Plotted ∧
      (e.run calls).scene.box.On (e.run calls).scene.viewport := by
  obtain ⟨first, start, setting⟩ := reach_setting opened calls
  have plotted := laid_plotted start
  have ratio := first.options.check_ratio start.options
  constructor
  · constructor
    · exact setting.viewport ▸ plotted.viewport
    · exact setting.pixelRatio ▸ plotted.ratio
    · exact setting.box ▸ plotted.wide
    · exact setting.box ▸ plotted.tall
  · rw [(start.sized setting).1, setting.box]
    exact Box.ofViewport_on start.box ratio

end Engine

/-! ### Every rung -/

namespace Engine
variable {ρ α : Type} [inst : Scalar α] [Scalar.Strict α] {backend : Backend ρ α} {screen : ρ}
  {o : Options α} {data : Dataset α} {e : Engine Band ρ α}

end Engine
end LadderChart
