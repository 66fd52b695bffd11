import LadderChart.Proofs.Plot.Rescaled
import LadderChart.Proofs.Standard.Repaints
import LadderChart.Proofs.Standard.Rungs

/-!
Interaction does not depend on the pixel ratio, over rational numbers. Two standard charts that
differ in nothing else go through the same calls side by side: the pointer finds the same columns,
the band stands at the same place of the page, and the texts and bands of the frames are larger by
the factor between the ratios.
-/

namespace LadderChart

/-! ### Labels -/

section Written
variable {α τ : Type}

theorem Canvas.run_labels (c : Canvas α) (text : τ → String) (x y : τ → α) (entries : List τ) :
    c.run (entries.map fun l => .label (text l) (x l) (y l)) =
      { c with ink := { c.ink with labels := c.ink.labels ++ entries.map fun l =>
          ⟨text l, x l, y l, c.style.fontSize, c.style.fill, c.style.align⟩ } } := by
  induction entries generalizing c with
  | nil => simp [run]
  | cons entry rest ih =>
      rw [List.map_cons, run, ih]
      simp only [apply, addLabel, List.map_cons, List.append_assoc, List.singleton_append]

variable [Scalar α] (o : Options α) (s : Scene α)

theorem Axes.strokes_labels : (Canvas.blank.run (Axes.strokes o s)).ink.labels = labels o s := by
  simp only [strokes, Canvas.run, Canvas.apply, Canvas.restore_ink, Canvas.run_append,
    Canvas.run_labels, titleStrokes, labels]
  split <;> rfl

theorem Engine.picture_labels : (picture o s).ink.labels = Axes.labels o s := by
  simp only [picture, Canvas.resetStyle, Canvas.apply, Canvas.restore_ink, Canvas.run_cells,
    Canvas.save, Axes.strokes_labels]

end Written

/-- What an action does to the overlays does not depend on the canvas. -/
theorem Surfaces.run_overlays {α : Type} [Scalar α] {s s' : Surfaces α} (actions : List (Action α))
    (under : s'.under = s.under) (pointer : s'.pointer = s.pointer) :
    (s'.run actions).under = (s.run actions).under ∧
      (s'.run actions).pointer = (s.run actions).pointer := by
  induction actions generalizing s s' with
  | nil => exact ⟨under, pointer⟩
  | cons a rest ih =>
      have first : (s'.apply a).under = (s.apply a).under ∧
          (s'.apply a).pointer = (s.apply a).pointer := by
        cases a <;> simp only [apply, under, pointer, and_self]
      exact ih first.1 first.2

/-- The same pass of two charts: neither was refused, and they have the same texts in the same order
and the same bands, at scaled places. -/
structure Handover.Rescaled (k : Rat) (h h' : Handover Rat) : Prop where
  pass : h'.pass = h.pass
  fine : h.fault = none ∧ h'.fault = none
  labels : (Display.inkOf h'.frame .main).labels =
    (Display.inkOf h.frame .main).labels.map (Label.scale k)
  bands : (Display.inkOf h'.frame .under).rects =
    (Display.inkOf h.frame .under).rects.map (Rect.scale k)

namespace Scene.Rescaled
variable {k : Rat} {s t : Scene Rat} (rescaled : Rescaled k s t)
include rescaled

theorem aimed (cursor : Cursor Rat) :
    Rescaled k { s with cursor := cursor } { t with cursor := cursor } :=
  ⟨rescaled.width, rescaled.pixelRatio, rescaled.box, rescaled.data, rescaled.window,
    rescaled.xScale, rescaled.yScale, rfl⟩

theorem bandRect (o : Options Rat) (ratio : Rat) (e : Element Rat) :
    Engine.bandRect (o.atRatio ratio) t e = (Engine.bandRect o s e).scale k := by
  simp only [Engine.bandRect, Rect.scale, rescaled.box, rescaled.length, Box.scale, mul_add]
  rfl

end Scene.Rescaled

/-- The check of options asks nothing of the pixel ratio but that it is positive. -/
theorem Options.check_rescaled {o : Options Rat} (checked : o.check = .ok ()) {ratio : Rat}
    (positive : 0 < ratio) : (o.atRatio ratio).check = .ok () := by
  unfold check at checked ⊢
  simp only [] at checked ⊢
  rw [throwIf_eq_ok, both_eq_ok, refuseIf_eq_ok] at checked ⊢
  refine ⟨checked.1, ?_, checked.2.2⟩
  simpa [atRatio, Scalar.zero_rat] using positive

namespace Engine
variable {ρ : Type} {k : Rat} {o : Options Rat} {e e' : Engine Band ρ Rat}

/-- Two charts in the same state, one of them larger by a factor. -/
structure Twins (k : Rat) (e e' : Engine Band ρ Rat) : Prop where
  options : e'.options = e.options.atRatio (k * e.options.pixelRatio)
  memory : e'.memory = e.memory
  scene : Scene.Rescaled k e.scene e'.scene
  under : e'.surfaces.under = e.surfaces.under
  pointer : e'.surfaces.pointer = e.surfaces.pointer

namespace Twins

section Changes
variable (twins : Twins k e e')
include twins

theorem refusal (c : Call Rat) : e'.refusal c = e.refusal c := by
  cases c <;> simp only [Engine.refusal, twins.scene.data]

theorem hover (hovered : Bool) : Twins k (e.hover hovered) (e'.hover hovered) := by
  refine ⟨twins.options, twins.memory, twins.scene, ?_, ?_⟩
  · simp only [Engine.hover, Surfaces.setHovered, LadderChart.setHovered, twins.under,
      twins.pointer, twins.scene.cursor]
  · simp only [Engine.hover, Surfaces.setHovered, LadderChart.setHovered, twins.pointer]

theorem setCursor (cursor : Cursor Rat) : Twins k (e.setCursor cursor) (e'.setCursor cursor) :=
  ⟨twins.options, twins.memory, twins.scene.aimed cursor, twins.under, twins.pointer⟩

theorem depart : Twins k e.depart e'.depart := by
  have gone := (twins.setCursor .away).hover false
  refine ⟨gone.options, gone.memory, gone.scene, gone.under, ?_⟩
  exact congrArg (·.setCrosshair []) gone.pointer

theorem load (data : Dataset Rat) : Twins k (e.load data) (e'.load data) := by
  refine ⟨twins.options, twins.memory, ?_, twins.under, twins.pointer⟩
  have scene := twins.scene
  refine ⟨scene.width, scene.pixelRatio, scene.box, rfl, rfl, scene.xScale, scene.yScale, ?_⟩
  simp only [Engine.load, scene.cursor]

theorem look (w : Window) : Twins k (e.look w) (e'.look w) := by
  refine ⟨twins.options, twins.memory, ?_, twins.under, twins.pointer⟩
  have scene := twins.scene
  refine ⟨scene.width, scene.pixelRatio, scene.box, scene.data, rfl, scene.xScale, scene.yScale, ?_⟩
  simp only [Engine.look, scene.cursor]

theorem resolveScales : Twins k e.resolveScales e'.resolveScales := by
  refine ⟨twins.options, twins.memory, ?_, twins.under, twins.pointer⟩
  have scene := twins.scene
  refine ⟨scene.width, scene.pixelRatio, scene.box, scene.data, scene.window, ?_, ?_, scene.cursor⟩
  · simp only [Engine.resolveScales, scene.data, scene.window, twins.options]
    rfl
  · simp only [Engine.resolveScales, scene.data, scene.window, twins.options]
    rfl

theorem sketch : Twins k e.sketch e'.sketch := by
  have resolved := twins.resolveScales
  exact ⟨resolved.options, resolved.memory, resolved.scene, resolved.under, resolved.pointer⟩

theorem furnish : Twins k e.furnish e'.furnish := by
  have same : BandLook.standard.init .whole e'.memory e'.scene e'.surfaces =
      BandLook.standard.init .whole e.memory e.scene e.surfaces := by
    simp only [BandLook.init, twins.memory, twins.under]
  have overlays := Surfaces.run_overlays
    (BandLook.standard.init .whole e.memory e.scene e.surfaces).actions twins.under twins.pointer
  refine ⟨twins.options, ?_, twins.scene, ?_, ?_⟩
  · simp only [Engine.furnish, same]
  · simp only [Engine.furnish, same, overlays.1]
  · simp only [Engine.furnish, same, overlays.2]

/-- The highlight places both bands alike, in page pixels. -/
theorem tell (positive : 0 < k) : Twins k e.tell e'.tell := by
  have same : BandLook.setCursor .whole e'.memory e'.scene e'.surfaces =
      BandLook.setCursor .whole e.memory e.scene e.surfaces := by
    simp only [BandLook.setCursor, twins.memory, twins.pointer, twins.scene.cursor,
      twins.scene.column]
    split
    · rfl
    · split
      · rfl
      · cases BandLook.column? e.scene e.scene.cursor.index with
        | none => rfl
        | some column => simp only [Option.map_some, Prod.map, twins.scene.placement positive]
  have overlays := Surfaces.run_overlays
    (BandLook.setCursor .whole e.memory e.scene e.surfaces).actions twins.under twins.pointer
  refine ⟨twins.options, ?_, twins.scene, ?_, ?_⟩
  · simp only [Engine.tell, same]
  · simp only [Engine.tell, same, overlays.1]
  · simp only [Engine.tell, same, overlays.2]

theorem accepted {answer answer' : ρ × Option Fault} (fine : answer.2 = none)
    (fine' : answer'.2 = none) :
    Twins k (e.accepted answer).engine (e'.accepted answer').engine := by
  simp only [Engine.accepted, fine, fine', Outcome.done]
  refine ⟨twins.options, twins.memory, twins.scene, ?_, ?_⟩
  · exact congrArg (·.markClean) twins.under
  · exact congrArg (·.markClean) twins.pointer

theorem bands : (underInk e'.options e'.scene e'.surfaces.under).rects =
    (underInk e.options e.scene e.surfaces.under).rects.map (Rect.scale k) := by
  simp only [underInk, twins.under, twins.options, List.map_map]
  congr 1
  funext element
  exact twins.scene.bandRect e.options _ element

theorem labels (positive : 0 < k) : (picture e'.options e'.scene).ink.labels =
    (picture e.options e.scene).ink.labels.map (Label.scale k) := by
  rw [picture_labels, picture_labels, twins.options]
  exact twins.scene.labels positive e.options

end Changes

/-! ### Calls -/

section Calls
variable {p : Options Rat} (twins : Twins k e e') (positive : 0 < k)
include twins positive

theorem move (anchored : e.Anchored o) (anchored' : e'.Anchored p) {x y : Rat}
    (there : e.scene.Beneath x y) : Twins k (e.turn (.move x y)) (e'.turn (.move x y)) := by
  have moved := anchored.moved x y
  have moved' := anchored'.moved x y
  refine ⟨?_, ?_, ?_, ?_, ?_⟩
  · rw [(turn_setting e _).1, (turn_setting e' _).1]
    exact twins.options
  · rw [moved.memory, moved'.memory]
    exact twins.memory
  · rw [moved.scene, moved'.scene, twins.scene.indexAt positive there]
    exact twins.scene.aimed _
  · rw [moved.under, moved'.under]
    exact twins.under
  · rw [moved.pointer, moved'.pointer, twins.pointer]

theorem turn (anchored : e.Anchored o) (anchored' : e'.Anchored p) (c : Call Rat)
    (there : ∀ x y, c = .move x y → e.scene.Beneath x y) : Twins k (e.turn c) (e'.turn c) := by
  cases c with
  | enter => exact twins.hover true
  | move x y => exact twins.move positive anchored anchored' (there x y rfl)
  | leave => exact twins.depart
  | setData data => exact twins.load data
  | setWindow first last =>
      simp only [Engine.turn, twins.scene.data]
      split
      · exact twins
      · exact twins.look _
  | resetWindow =>
      simp only [Engine.turn, twins.scene.data]
      split
      · exact twins
      · exact twins.look _
  | render => exact twins

end Calls
end Twins

/-- Two charts come to the same end, and hand over the same frames on the way. -/
structure Alike (k : Rat) (outcome outcome' : Outcome Band ρ Rat)
    (handed handed' : List (Handover Rat)) : Prop where
  twins : Twins k outcome.engine outcome'.engine
  fault : outcome'.fault = outcome.fault
  frames : List.Forall₂ (Handover.Rescaled k) handed handed'

namespace Twins
variable {p : Options Rat} (twins : Twins k e e')
include twins

theorem repaint (poised : e.Poised o) (poised' : e'.Poised p) :
    Alike k e.repaintIfDirty e'.repaintIfDirty e.repaintFrames e'.repaintFrames := by
  have fine := poised.repaint_fine
  have fine' := poised'.repaint_fine
  have dirty : e'.surfaces.overlayDirty = e.surfaces.overlayDirty := by
    simp only [Surfaces.overlayDirty, twins.under, twins.pointer]
  unfold repaintIfDirty repaintFrames
  rw [dirty]
  split
  · refine ⟨twins.accepted fine fine', ?_, .cons ⟨rfl, ⟨fine, fine'⟩, rfl, ?_⟩ .nil⟩
    · simp only [Engine.repaint, accepted_fault, fine, fine']
    · rw [(overlayFrame_ink e).1, (overlayFrame_ink e').1]
      exact twins.bands
  · exact ⟨twins, rfl, .nil⟩

variable (positive : 0 < k)
include positive

theorem pass (poised : e.Poised o) (poised' : e'.Poised p)
    (still : e.scene.cursor.index ≠ none → e.resolveScales.scene = e.scene)
    (still' : e'.scene.cursor.index ≠ none → e'.resolveScales.scene = e'.scene) :
    Alike k e.sketch.paint e'.sketch.paint e.sketch.paintFrames e'.sketch.paintFrames := by
  obtain ⟨ready, ink⟩ := poised.sketched still
  obtain ⟨ready', ink'⟩ := poised'.sketched still'
  have fine := ready.paint_fine ink
  have fine' := ready'.paint_fine ink'
  have shown := fullFrame_ink e.sketch (picture_kind _ _)
  have shown' := fullFrame_ink e'.sketch (picture_kind _ _)
  refine ⟨twins.sketch.accepted fine fine', ?_, .cons ⟨rfl, ⟨fine, fine'⟩, ?_, ?_⟩ .nil⟩
  · simp only [paint, accepted_fault, fine, fine']
  · rw [shown.2.1, shown'.2.1]
    exact twins.resolveScales.labels positive
  · rw [shown.1, shown'.1]
    exact twins.sketch.bands

theorem announce (shaken : e.Shaken o) (shaken' : e'.Shaken p) (ready : e.Ready)
    (ready' : e'.Ready) :
    Alike k e.announce e'.announce e.announceFrames e'.announceFrames := by
  rw [announce_standard shaken.plugins, announce_standard shaken'.plugins,
    announceFrames_standard shaken.plugins, announceFrames_standard shaken'.plugins]
  exact (twins.tell positive).repaint (shaken.tell ready) (shaken'.tell ready')

theorem renew (shaken : e.Shaken o) (shaken' : e'.Shaken p)
    (away : e.scene.cursor.index = none) :
    Alike k e.renew e'.renew e.renewFrames e'.renewFrames := by
  have away' : e'.scene.cursor.index = none := by
    rw [twins.scene.cursor]
    exact away
  rw [renew_standard shaken.plugins, renew_standard shaken'.plugins,
    renewFrames_standard shaken.plugins, renewFrames_standard shaken'.plugins]
  exact (twins.tell positive).pass positive (shaken.tell (ready_away away))
    (shaken'.tell (ready_away away')) (absurd away) (absurd away')

theorem call (anchored : e.Anchored o) (anchored' : e'.Anchored p) (c : Call Rat)
    (there : ∀ x y, c = .move x y → e.scene.Beneath x y) :
    Alike k (e.call c) (e'.call c) (e.frames c) (e'.frames c) := by
  rw [call_eq, call_eq, frames_eq, frames_eq, twins.refusal]
  cases refused : e.refusal c with
  | some fault => exact ⟨twins, rfl, .nil⟩
  | none =>
      have turned := twins.turn positive anchored anchored' c there
      have shaken := anchored.turn c
      have shaken' := anchored'.turn c
      cases c with
      | enter => exact turned.repaint anchored.enter anchored'.enter
      | move x y =>
          exact turned.announce positive shaken shaken' (anchored.move x y) (anchored'.move x y)
      | leave => exact turned.announce positive shaken shaken' (ready_away rfl) (ready_away rfl)
      | setData data => exact turned.renew positive shaken shaken' rfl
      | setWindow first last =>
          obtain ⟨w, _, same⟩ := window_look e first last refused
          exact turned.renew positive shaken shaken' (by rw [same]; rfl)
      | resetWindow =>
          have length : (e'.turn .resetWindow).scene.data.length =
              (e.turn .resetWindow).scene.data.length := by rw [turned.scene.data]
          simp only [follow, followFrames, length]
          rcases reset_cases e with ⟨empty, same⟩ | ⟨filled, w, same⟩
          · have none : (e.turn .resetWindow).scene.data.length = 0 := by rw [same]; exact empty
            simp only [if_pos none]
            exact ⟨turned, rfl, .nil⟩
          · have some : (e.turn .resetWindow).scene.data.length ≠ 0 := by rw [same]; exact filled
            simp only [if_neg some]
            exact turned.renew positive shaken shaken' (by rw [same]; rfl)
      | render =>
          simp only [follow, followFrames]
          rw [render_standard shaken.plugins, render_standard shaken'.plugins,
            renderFrames_standard shaken.plugins, renderFrames_standard shaken'.plugins]
          exact turned.pass positive anchored.toPoised anchored'.toPoised
            (fun _ => settled_resolve anchored.settled) fun _ => settled_resolve anchored'.settled

/-- The box of the plot stays where it is, so positions over it stay over it. -/
theorem run (anchored : e.Anchored o) (anchored' : e'.Anchored p) (calls : List (Call Rat))
    (there : ∀ x y, .move x y ∈ calls → e.scene.Beneath x y) :
    Twins k (e.run calls) (e'.run calls) ∧ e'.runFaults calls = e.runFaults calls ∧
      List.Forall₂ (Handover.Rescaled k) (e.runFrames calls) (e'.runFrames calls) := by
  induction calls generalizing e e' with
  | nil => exact ⟨twins, rfl, .nil⟩
  | cons c rest ih =>
      have alike := twins.call positive anchored anchored' c fun x y same =>
        there x y (same ▸ List.mem_cons_self)
      have setting := call_sameSetting e c
      obtain ⟨reached, faults, frames⟩ := ih alike.twins (anchored.call c) (anchored'.call c)
        fun x y member => (there x y (List.mem_cons_of_mem c member)).same setting.pixelRatio
          setting.box
      exact ⟨reached, by rw [runFaults, runFaults, alike.fault, faults],
        List.rel_append alike.frames frames⟩

end Twins

/-! ### Openings -/

section Opened
variable {backend : Backend ρ Rat} {screen : ρ} {data : Dataset Rat} {first : Engine Band ρ Rat}

theorem LaidOut.ratio_pos (start : LaidOut backend screen (.standard o) data first) :
    0 < o.pixelRatio := by
  have checked := first.options.check_ratio start.options
  rwa [start.standard.2.1] at checked

theorem LaidOut.rescaled (start : LaidOut backend screen (.standard o) data first)
    (positive : 0 < k) (whole : o.Whole) (whole' : (o.atRatio (k * o.pixelRatio)).Whole) :
    ∃ first', LaidOut backend screen (.standard (o.atRatio (k * o.pixelRatio))) data first' ∧
      Twins k first first' := by
  obtain ⟨standard, options, memory⟩ := start.standard
  obtain ⟨width, height⟩ := whole.larger whole'
  have laid := start.box
  have checked := start.options
  rw [options] at laid checked
  let larger : Options Rat := BandLook.opts (o.atRatio (k * o.pixelRatio))
  refine ⟨{ first with
    options := larger, scene := firstScene larger (first.scene.box.scale k) data }, ?_, ?_⟩
  · refine ⟨start.ids, ?_, ?_, start.valid, ?_, rfl, start.surfaces, standard, start.backend,
      start.screen⟩
    · rw [memory]
      rfl
    · exact Options.check_rescaled checked (mul_pos positive start.ratio_pos)
    · exact Box.ofViewport_scale positive width height laid
  · refine ⟨?_, rfl, ?_, rfl, rfl⟩
    · rw [options]
      rfl
    · rw [start.scene, options]
      exact ⟨width, rfl, rfl, rfl, rfl, rfl, rfl, rfl⟩

/-- A position over the plot is over it on the canvas. -/
theorem LaidOut.beneath (start : LaidOut backend screen (.standard o) data first)
    (whole : o.Whole) (setting : SameSetting first e) {x y : Rat} (there : o.OnPlot x y) :
    e.scene.Beneath x y := by
  obtain ⟨_, options, _⟩ := start.standard
  have ratio := start.ratio_pos.le
  obtain ⟨_, _, laid, _⟩ := Box.ofViewport_eq_ok start.box
  obtain ⟨_, scaled⟩ := start.sized setting
  rw [options] at laid scaled
  have width : e.scene.box.width =
      (Box.ofWord o.width - o.insets.left - o.insets.right) * o.pixelRatio := by
    rw [setting.box, laid, sub_mul, sub_mul, ← whole.viewport.1]
    rfl
  have height : e.scene.box.height =
      (Box.ofWord o.height - o.insets.top - o.insets.bottom) * o.pixelRatio := by
    rw [setting.box, laid, sub_mul, sub_mul, ← whole.viewport.2]
    rfl
  constructor
  · rw [scaled]
    exact mul_nonneg there.left ratio
  · rw [scaled, width]
    exact mul_le_mul_of_nonneg_right there.right ratio
  · rw [scaled]
    exact mul_nonneg there.top ratio
  · rw [scaled, height]
    exact mul_le_mul_of_nonneg_right there.bottom ratio

/-- The other chart opens as well, and opens on the same frame. -/
theorem LaidOut.opening_alike {first' : Engine Band ρ Rat} {p : Options Rat}
    (accepts : backend.Accepts) (start : LaidOut backend screen (.standard o) data first)
    (start' : LaidOut backend screen (.standard p) data first') (twins : Twins k first first')
    (positive : 0 < k) :
    Alike k first.opening first'.opening first.openingFrames first'.openingFrames := by
  obtain ⟨poised, away⟩ := laid_poised accepts start
  obtain ⟨poised', away'⟩ := laid_poised accepts start'
  rw [opening_standard start.standard.1, opening_standard start'.standard.1,
    openingFrames_standard start.standard.1, openingFrames_standard start'.standard.1]
  exact twins.resolveScales.furnish.pass positive poised poised' (absurd away) (absurd away')

/-- What a user notices of two charts after the same calls. -/
structure Resembles (k : Rat) (o : Options Rat) (e e' : Engine Band ρ Rat)
    (calls : List (Call Rat)) (handed handed' : List (Handover Rat)) : Prop where
  faults : e'.runFaults calls = e.runFaults calls
  hovered : (e'.run calls).scene.cursor = (e.run calls).scene.cursor
  found : ∀ x y, o.OnPlot x y → (e'.run calls).indexAt? x y = (e.run calls).indexAt? x y ∧
    (e'.run calls).select? x y = (e.run calls).select? x y
  elements : (e'.run calls).surfaces.under.elements = (e.run calls).surfaces.under.elements
  frames : List.Forall₂ (Handover.Rescaled k) handed handed'

/-- The pixel ratio makes no difference to interaction. If both ratios come to whole numbers of
device pixels, the chart opens at the other one as well, and as long as the pointer stays over the
plot the same calls have the same faults, hovered columns, answers, and bands on the page. Frame by
frame the charts show the same texts in the same order, and the same bands, at places scaled by the
factor between the ratios. -/
theorem interaction_ratio_free (accepts : backend.Accepts) (whole : o.Whole) (ratio : Rat)
    (positive : 0 < ratio) (whole' : (o.atRatio ratio).Whole)
    (opened : openWith backend screen (.standard o) data = .opened e) :
    ∃ e', openWith backend screen (.standard (o.atRatio ratio)) data = .opened e' ∧
      ∀ calls, (∀ x y, .move x y ∈ calls → o.OnPlot x y) →
        Resembles (ratio / o.pixelRatio) o e e' calls
          (openFrames backend screen (.standard o) data ++ e.runFrames calls)
          (openFrames backend screen (.standard (o.atRatio ratio)) data ++
            e'.runFrames calls) := by
  obtain ⟨first, start, done⟩ := opened_cases opened
  have before := start.ratio_pos
  obtain ⟨k, rfl⟩ : ∃ k, ratio = k * o.pixelRatio := ⟨ratio / o.pixelRatio, by field_simp⟩
  have factor : 0 < k := (mul_pos_iff_of_pos_right before).mp positive
  rw [mul_div_cancel_right₀ k before.ne']
  obtain ⟨first', start', twins⟩ := start.rescaled factor whole whole'
  -- the charts are opened side by side, and from then on each call keeps them alike
  have alike := LaidOut.opening_alike accepts start start' twins factor
  have frames := alike.frames
  have fine : first'.opening = ⟨first'.opening.engine, none⟩ := by
    have none : first'.opening.fault = none := alike.fault.trans (congrArg (·.fault) done)
    exact congrArg (Outcome.mk first'.opening.engine) none
  have opened' := (openWith_laid start').trans (start_done fine)
  have same := alike.twins
  rw [done] at same
  rw [← openFrames_laid start, ← openFrames_laid start'] at frames
  have beneath : ∀ calls x y, o.OnPlot x y → (e.run calls).scene.Beneath x y := by
    intro calls x y there
    obtain ⟨_, start, setting⟩ := reach_setting opened calls
    exact start.beneath whole setting there
  refine ⟨_, opened', ?_⟩
  intro calls there
  obtain ⟨reached, faults, later⟩ := same.run factor (opened_anchored accepts opened)
    (opened_anchored accepts opened') calls fun x y member => beneath [] x y (there x y member)
  refine ⟨faults, reached.scene.cursor, ?_, congrArg (·.elements) reached.under,
    List.rel_append frames later⟩
  intro x y there
  exact ⟨reached.scene.indexAt factor (beneath calls x y there),
    reached.scene.select factor (beneath calls x y there)⟩

/-- The second column is hovered, with one device pixel in a page pixel and with three in two. -/
theorem gapped_columns_resemble : ∃ e e', exactChart = .opened e ∧
    openWith Recorder.backend .fresh (.standard (Options.standard.atRatio (3 / 2))) gappedColumns =
      .opened e' ∧
    (e'.run [.move 456.0 100.0]).scene.cursor.index = some 1 ∧
    (e'.run [.move 456.0 100.0]).surfaces.under.elements =
      (e.run [.move 456.0 100.0]).surfaces.under.elements ∧
    List.Forall₂ (Handover.Rescaled (3 / 2 / 1.0))
      (openFrames Recorder.backend .fresh (.standard .standard) gappedColumns ++
        e.runFrames [.move 456.0 100.0])
      (openFrames Recorder.backend .fresh (.standard (Options.standard.atRatio (3 / 2)))
        gappedColumns ++ e'.runFrames [.move 456.0 100.0]) := by
  have evaluated : exactChart.passes (fun e =>
      decide ((e.run [.move 456.0 100.0]).scene.cursor.index = some 1)) = true := by
    decide +kernel
  obtain ⟨e, opened, test⟩ := (Opening.passes_iff _ _).mp evaluated
  obtain ⟨e', opened', alike⟩ := interaction_ratio_free Recorder.accepts
    ⟨⟨1440, 600⟩, by decide +kernel, by decide +kernel⟩ (3 / 2) (by norm_num)
    ⟨⟨2160, 900⟩, by decide +kernel, by decide +kernel⟩ opened
  have there : ∀ x y : Rat, Call.move x y ∈ [Call.move 456.0 100.0] →
      Options.standard.OnPlot x y := by
    intro x y member
    rw [List.mem_singleton, Call.move.injEq] at member
    obtain ⟨rfl, rfl⟩ := member
    constructor <;> decide +kernel
  obtain ⟨_, hovered, _, elements, frames⟩ := alike _ there
  refine ⟨e, e', opened, opened', ?_, elements, frames⟩
  rw [hovered]
  exact of_decide_eq_true test

end Opened
end Engine
end LadderChart
