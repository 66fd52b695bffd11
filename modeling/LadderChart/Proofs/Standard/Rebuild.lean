import LadderChart.Proofs.Standard.Rest

/-!
An update shows what a rebuilt chart shows. Being told that no column is hovered hides the band, the
crosshair is switched off, and the ink of a pass depends on options, data and window alone. So the
frame of an update has nothing in it of what happened before.
-/

namespace LadderChart

/-- Whether a frame is accepted depends on the frame, not on what is on the screen. -/
def Backend.Impartial {ρ α : Type} (b : Backend ρ α) : Prop :=
  ∀ screen screen' frame, (b.paint screen frame).2 = (b.paint screen' frame).2

theorem Recorder.impartial {α : Type} [Scalar α] : (Recorder.backend (α := α)).Impartial := by
  intro screen screen' frame
  simp only [backend, counting]
  split <;> rfl

namespace Engine
variable {ρ α : Type} [Scalar α]

theorem picture_cursor (o : Options α) (s : Scene α) (cursor : Cursor α) :
    picture o { s with cursor := cursor } = picture o s := rfl

def bareFrame (v : Viewport) (ink : Layer α) : Frame α :=
  (((Frame.full v).setLayer (.blank .under)).setLayer ink).setLayer (.blank .over)

theorem fullFrame_bare {e : Engine Band ρ α} {offset width : α}
    (furnished : e.Furnished false offset width) :
    e.fullFrame = bareFrame e.scene.viewport e.surfaces.canvas.ink := by
  have under : underInk e.options e.scene e.surfaces.under = .blank .under := by
    simp [underInk, furnished.elements, BandLook.element, Layer.blank]
  have upper : overInk e.surfaces.pointer = .blank .over := by
    simp [overInk, furnished.crosshair, Layer.blank]
  rw [fullFrame, under, upper]
  rfl

def sketchFrame (o : Options α) (s : Scene α) : Frame α := bareFrame s.viewport (picture o s).ink

theorem sketch_bare {e : Engine Band ρ α} (rests : e.Rests) (away : e.scene.cursor.index = none) :
    e.sketch.fullFrame = sketchFrame e.options e.resolveScales.scene := by
  obtain ⟨visible, offset, width, furnished, hidden⟩ := rests.band
  rw [hidden away] at furnished
  exact fullFrame_bare (furnished.same (sketch_sameBand e))

omit [Scalar α] in
theorem accepted_fault {σ : Type} (e : Engine σ ρ α) (answer : ρ × Option Fault) :
    (e.accepted answer).fault = answer.2 := by
  unfold accepted
  split <;> simp_all [Outcome.done]

/-! ### Updates and openings -/

/-- What a full pass leaves for the eye and for the next call, the pointer apart. -/
structure LooksLike (e e' : Engine Band ρ α) : Prop where
  window : e.scene.window = e'.scene.window
  xScale : e.scene.xScale = e'.scene.xScale
  yScale : e.scene.yScale = e'.scene.yScale
  index : e.scene.cursor.index = e'.scene.cursor.index
  ink : e.surfaces.canvas.ink = e'.surfaces.canvas.ink

variable {backend : Backend ρ α} {screen : ρ} {o : Options α} {data : Dataset α}
  {first e : Engine Band ρ α}

theorem laid_away (start : LaidOut backend screen (.standard o) data first) :
    first.scene.cursor.index = none := by
  rw [start.scene]
  rfl

/-- An update and an opening whose passes have the same frame are accepted or refused alike. -/
theorem renew_like_opening (impartial : backend.Impartial) (standard : e.Standard)
    (same : e.backend = backend) (stirred : e.Stirred) (away : e.scene.cursor.index = none)
    (start : LaidOut backend screen (.standard o) data first)
    (alike : sketchFrame e.options e.resolveScales.scene =
      sketchFrame first.options first.resolveScales.scene) :
    e.renew.fault = first.opening.fault ∧ e.renewFrames = first.openingFrames ∧
      ∃ frame, e.renewFrames = [⟨.full, frame, e.renew.fault⟩] := by
  have updated : e.tell.sketch.fullFrame = sketchFrame e.options e.resolveScales.scene :=
    sketch_bare (rests_tell stirred) away
  have none := laid_away start
  have opened : first.resolveScales.furnish.sketch.fullFrame =
      sketchFrame first.options first.resolveScales.scene :=
    sketch_bare (furnish_rests start) none
  have answer : (e.backend.paint e.screen e.tell.sketch.fullFrame).2 =
      (first.backend.paint first.screen first.resolveScales.furnish.sketch.fullFrame).2 := by
    rw [updated, opened, alike, same, start.backend]
    exact impartial _ _ _
  have faultUpdated : e.renew.fault = (e.backend.paint e.screen e.tell.sketch.fullFrame).2 := by
    rw [renew_standard standard]
    exact accepted_fault _ _
  have faultOpened : first.opening.fault =
      (first.backend.paint first.screen first.resolveScales.furnish.sketch.fullFrame).2 := by
    rw [opening_standard start.standard.1]
    exact accepted_fault _ _
  have handed : e.renewFrames = [⟨.full, e.tell.sketch.fullFrame, e.renew.fault⟩] := by
    rw [renewFrames_standard standard, faultUpdated]
    rfl
  refine ⟨faultUpdated.trans (answer.trans faultOpened.symm), ?_, _, handed⟩
  rw [handed, openingFrames_standard start.standard.1, faultUpdated, answer, updated, alike,
    ← opened]
  rfl

theorem renew_like_start (impartial : backend.Impartial) (standard : e.Standard)
    (same : e.backend = backend) (stirred : e.Stirred) (away : e.scene.cursor.index = none)
    (start : LaidOut backend screen (.standard o) data first)
    (alike : sketchFrame e.options e.resolveScales.scene =
      sketchFrame first.options first.resolveScales.scene) :
    match first.start with
    | .refused _ _ fault => e.renew.fault = some fault
    | .opened rebuilt => e.renew.fault = none ∧
        (∃ frame, e.renewFrames = [⟨.full, frame, none⟩]) ∧ rebuilt = first.opening.engine := by
  obtain ⟨fault, _, frame, one⟩ :=
    renew_like_opening impartial standard same stirred away start alike
  rw [start_eq]
  cases failed : first.opening.fault with
  | some reason => exact fault.trans failed
  | none =>
      rw [failed] at fault
      rw [fault] at one
      exact ⟨fault, ⟨frame, one⟩, rfl⟩

theorem renew_state (standard : e.Standard) : e.renew.engine.scene = e.resolveScales.scene ∧
    e.renew.engine.surfaces.canvas = picture e.options e.resolveScales.scene := by
  rw [renew_standard standard]
  exact ⟨accepted_scene e.tell.sketch _, accepted_canvas e.tell.sketch _⟩

theorem opening_state (standard : first.Standard) :
    first.opening.engine.scene = first.resolveScales.scene ∧
      first.opening.engine.surfaces.canvas = picture first.options first.resolveScales.scene := by
  rw [opening_standard standard]
  exact ⟨accepted_scene first.resolveScales.furnish.sketch _,
    accepted_canvas first.resolveScales.furnish.sketch _⟩

/-- With other data loaded the scene is that of an engine laid out on them, but for the pointer. -/
theorem load_scene (setting : SameSetting first e)
    (start : LaidOut backend screen (.standard o) data first) (screen' : ρ) (other : Dataset α) :
    (e.load other).resolveScales.scene =
      { (first.laidFor screen' other).resolveScales.scene with
        cursor := ⟨none, e.scene.cursor.pointer⟩ } := by
  obtain ⟨viewport, ratio⟩ := start.sized setting
  simp only [resolveScales, load, laidFor, firstScene, viewport, ratio, setting.box,
    setting.options]

theorem load_like_laid (setting : SameSetting first e) (standard : e.Standard)
    (start : LaidOut backend screen (.standard o) data first) (screen' : ρ) (other : Dataset α)
    (start' : LaidOut backend screen' (.standard o) other (first.laidFor screen' other)) :
    LooksLike (e.load other).renew.engine (first.laidFor screen' other).opening.engine := by
  have scene := load_scene setting start screen' other
  have loaded : (e.load other).Standard := standard
  obtain ⟨updated, drawn⟩ := renew_state loaded
  obtain ⟨opened, drawn'⟩ := opening_state start'.standard.1
  have options : (e.load other).options = first.options := setting.options
  rw [scene, options, picture_cursor] at drawn
  rw [scene] at updated
  constructor
  · rw [updated, opened]
  · rw [updated, opened]
  · rw [updated, opened]
  · rw [updated, opened]
    rfl
  · rw [drawn, drawn']
    rfl

/-- Whatever happened before, data that are set show what a chart opened on them shows, and are
refused for the same reason. -/
theorem update_eq_rebuild (impartial : backend.Impartial)
    (opened : openWith backend screen (.standard o) data = .opened e) (calls : List (Call α))
    (other : Dataset α) (screen' : ρ) :
    (e.run calls).frames (.setData other) = openFrames backend screen' (.standard o) other ∧
    match openWith backend screen' (.standard o) other with
    | .refused _ _ fault => ((e.run calls).call (.setData other)).fault = some fault
    | .opened rebuilt => ((e.run calls).call (.setData other)).fault = none ∧
        (∃ frame, (e.run calls).frames (.setData other) = [⟨.full, frame, none⟩]) ∧
        LooksLike ((e.run calls).call (.setData other)).engine rebuilt := by
  obtain ⟨first, start, setting⟩ := reach_setting opened calls
  have standing := reach_standing opened calls
  generalize e.run calls = reached at setting standing ⊢
  cases checked : other.check with
  | error fault =>
      have refused : reached.refusal (.setData other) = some fault := by simp [refusal, checked]
      rw [frames_refused reached _ fault refused,
        openFrames_refused start screen' other fault checked,
        start.refused screen' other fault checked, call_eq, refused]
      exact ⟨rfl, rfl⟩
  | ok _ =>
      have accepted : reached.refusal (.setData other) = none := by simp [refusal, checked]
      have start' := start.other screen' other checked
      have stirred := stirred_turn standing.options standing.rests (.setData other)
      have standard : (reached.load other).Standard := standing.plugins
      have back : (reached.load other).backend = backend := setting.backend.trans start.backend
      -- both passes have one frame, and the backend looks at nothing else
      have alike : sketchFrame (reached.load other).options
            (reached.load other).resolveScales.scene =
          sketchFrame (first.laidFor screen' other).options
            (first.laidFor screen' other).resolveScales.scene := by
        rw [load_scene setting start screen' other,
          show (reached.load other).options = first.options from setting.options]
        rfl
      obtain ⟨_, frames, _⟩ :=
        renew_like_opening impartial standard back stirred rfl start' alike
      have ends := renew_like_start impartial standard back stirred rfl start' alike
      rw [frames_update reached _ accepted (fun _ => rfl), openFrames_laid start',
        openWith_laid start', call_eq, accepted]
      refine ⟨frames, ?_⟩
      generalize (first.laidFor screen' other).start = opening at ends ⊢
      cases opening with
      | refused _ _ fault => exact ends
      | opened rebuilt =>
          obtain ⟨fine, one, same⟩ := ends
          subst same
          exact ⟨fine, one, load_like_laid setting standing.plugins start screen' other start'⟩

def gappedColumns {α : Type} [Scalar α] : Dataset α :=
  ⟨[3.0, 4.0, 6.0], [some [5.0], none, some [7.0, 9.0]], [some [1.0], none, some [2.0, 3.0]],
    ⟨0.0, 3.0⟩⟩

def gappedChart : Opening Band (Recorder Float) Float :=
  openWith Recorder.backend .fresh (.standard .standard) gappedColumns

/-- The pointer is over the second column as the data change. -/
theorem gapped_columns_rebuilt : ∃ e rebuilt, twoColumnChart = .opened e ∧
    gappedChart = .opened rebuilt ∧
    (e.run [.move 1300.0 100.0]).scene.cursor.index = some 1 ∧
    ((e.run [.move 1300.0 100.0]).call (.setData gappedColumns)).fault = none ∧
    LooksLike ((e.run [.move 1300.0 100.0]).call (.setData gappedColumns)).engine rebuilt := by
  have evaluated : twoColumnChart.passes (fun e =>
      (e.run [.move 1300.0 100.0]).scene.cursor.index == some 1) = true := by decide +kernel
  have evaluated' : gappedChart.passes (fun _ => true) = true := by decide +kernel
  obtain ⟨e, opened, hovered⟩ := (Opening.passes_iff _ _).mp evaluated
  obtain ⟨rebuilt, opened', _⟩ := (Opening.passes_iff _ _).mp evaluated'
  have same := update_eq_rebuild Recorder.impartial opened [.move 1300.0 100.0] gappedColumns .fresh
  rw [show openWith Recorder.backend .fresh (.standard .standard) gappedColumns = .opened rebuilt
    from opened'] at same
  exact ⟨e, rebuilt, opened, opened', by simpa using hovered, same.2.1, same.2.2.2⟩

end Engine
end LadderChart
