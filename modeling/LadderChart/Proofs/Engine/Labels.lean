import LadderChart.Proofs.Engine.Isolation
import LadderChart.Proofs.Engine.Resolved
import LadderChart.Proofs.Plot.Labels
import LadderChart.Proofs.Standard.Rescaled

/-!
The labels of a full pass. It starts on a blank canvas with the axes of the scales just settled, and
strokes only ever add labels, so whatever the plugins draw, the labels of the axes come first on the
canvas and in the frame that is handed over.
-/

namespace LadderChart

/-! ### Strokes only add -/

namespace Canvas
variable {α : Type}

mutual

theorem apply_extends (c : Canvas α) (stroke : Stroke α) :
    c.ink.labels <+: (apply c stroke).ink.labels := by
  cases stroke with
  | restore => simp only [apply, restore_ink, List.prefix_rfl]
  | label text x y => exact List.prefix_append _ _
  | scope body =>
      simp only [apply, restore_ink]
      exact run_extends c.save body
  | _ => exact List.prefix_rfl

theorem run_extends (c : Canvas α) (strokes : List (Stroke α)) :
    c.ink.labels <+: (run c strokes).ink.labels := by
  cases strokes with
  | nil => exact List.prefix_rfl
  | cons stroke rest =>
      simp only [run]
      exact (apply_extends c stroke).trans (run_extends _ rest)

end

/-- Ink of the main layer, with the labels of the axes before any others. -/
structure Headed [Scalar α] (o : Options α) (s : Scene α) (c : Canvas α) : Prop where
  kind : c.ink.kind = .main
  labels : Axes.labels o s <+: c.ink.labels

variable [Scalar α] {o : Options α} {s : Scene α}

theorem axes_headed (o : Options α) (s : Scene α) :
    Headed o s (Canvas.blank.run (Axes.strokes o s)) :=
  ⟨run_kind _ _, Axes.strokes_labels o s ▸ List.prefix_rfl⟩

theorem Headed.run {c : Canvas α} (headed : Headed o s c) (strokes : List (Stroke α)) :
    Headed o s (c.run strokes) :=
  ⟨(c.run_kind strokes).trans headed.kind, headed.labels.trans (c.run_extends strokes)⟩

end Canvas

namespace Engine
variable {σ ρ α : Type} [Scalar α]

theorem runHooks_headed {o : Options α} {s : Scene α} (plugins : List (Plugin σ α))
    (e : Engine σ ρ α) (headed : e.surfaces.canvas.Headed o s) :
    (runHooks .draw Plugin.draw settleCanvas plugins e).engine.surfaces.canvas.Headed o s := by
  induction plugins generalizing e with
  | nil => exact headed
  | cons p rest ih =>
      simp only [runHooks]
      generalize p.draw e.memory e.scene e.surfaces = run
      -- settling a canvas keeps its ink
      have drawn : (settleCanvas (e.surfaces.run run.actions)).canvas.Headed o s := by
        have added := headed.run (run.actions.filterMap Action.stroke?)
        rw [← Surfaces.run_canvas] at added
        exact ⟨added.kind, added.labels⟩
      cases run.fault with
      | none => exact ih _ drawn
      | some fault => exact drawn

/-- What a full pass leaves on the canvas and hands over, if it comes to that. -/
structure Writes (o : Options α) (s : Scene α) (e : Engine σ ρ α) (frames : List (Handover α)) :
    Prop where
  canvas : Axes.labels o s <+: e.surfaces.canvas.ink.labels
  frames : ∀ h ∈ frames, Axes.labels o s <+: (Display.inkOf h.frame .main).labels

theorem render_writes (e : Engine σ ρ α) :
    Writes e.options e.resolveScales.scene e.render.engine e.renderFrames := by
  have headed : (runDraw e.resolveScales.drawAxes).engine.surfaces.canvas.Headed e.options
      e.resolveScales.scene := runHooks_headed _ _ (Canvas.axes_headed _ _)
  constructor
  · unfold render Outcome.andThen
    split
    -- a hook that fails ends the pass, but what is drawn stays
    · exact headed.labels
    · rw [paint, accepted_canvas]
      exact headed.labels
  · intro h member
    obtain ⟨_, painted⟩ := mem_unlessStopped member
    rw [List.mem_singleton.mp painted, (fullFrame_ink _ headed.kind).2.1]
    exact headed.labels

theorem renew_writes (e : Engine σ ρ α) (told : (runSetCursor e).fault = none) :
    Writes e.options e.resolveScales.scene e.renew.engine e.renewFrames := by
  obtain ⟨options, scene⟩ := runHooks_scene .setCursor Plugin.setCursor id e.plugins e
  have written := render_writes (runSetCursor e).engine
  rw [show (runSetCursor e).engine.options = e.options from options,
    show (runSetCursor e).engine.resolveScales.scene = e.resolveScales.scene from
      resolve_same options scene] at written
  unfold renew renewFrames Outcome.andThen unlessStopped
  rw [told]
  exact written

theorem opening_writes (first : Engine σ ρ α)
    (begun : (runInit first.resolveScales).fault = none) :
    Writes first.options first.resolveScales.scene first.opening.engine first.openingFrames := by
  have options := (runHooks_scene .init Plugin.init id first.plugins first.resolveScales).1
  have written := render_writes (runInit first.resolveScales).engine
  rw [init_scene first, show (runInit first.resolveScales).engine.options = first.options from
    options] at written
  unfold opening openingFrames Outcome.andThen unlessStopped
  rw [begun]
  exact written

/-! ### Calls -/

/-- A full frame is handed over by a full pass and by nothing else. -/
theorem settles_of_full (e : Engine σ ρ α) (c : Call α) (h : Handover α)
    (handed : h ∈ e.frames c) (full : h.pass = .full) : e.settles c = true := by
  -- what moves or leaves hands over the overlays, in a frame of their own
  have overlay : ∀ e : Engine σ ρ α, h ∉ e.repaintFrames := by
    intro e member
    rw [repaintFrames_overlay e h member] at full
    cases full
  rw [frames_eq] at handed
  cases refused : e.refusal c with
  | some fault => simp [refused] at handed
  | none =>
      simp only [refused] at handed
      simp only [settles, refused, Option.isNone_none, Bool.true_and]
      cases c with
      | enter => exact absurd handed (overlay _)
      | move x y => exact absurd (mem_unlessStopped handed).2 (overlay _)
      | leave => exact absurd (mem_unlessStopped handed).2 (overlay _)
      | setData data => simp [updates, (mem_unlessStopped handed).1]
      | setWindow first last => simp [updates, (mem_unlessStopped handed).1]
      | resetWindow =>
          simp only [followFrames] at handed
          split at handed
          · cases handed
          · rename_i filled
            rw [turn_reset_length] at filled
            simp [updates, filled, (mem_unlessStopped handed).1]
      | render => rfl

theorem settles_scene {e : Engine σ ρ α} {c : Call α} (pass : e.settles c = true) :
    (e.call c).engine.scene = (e.turn c).resolveScales.scene := by
  have accepted := (settles_cases pass).1
  rw [call_eq, accepted]
  exact (follow_scene e c accepted).trans (if_pos pass)

theorem call_writes (e : Engine σ ρ α) (c : Call α) (pass : e.settles c = true) :
    Writes e.options (e.call c).engine.scene (e.call c).engine (e.frames c) := by
  rw [settles_scene pass, ← (turn_setting e c).1]
  rcases (settles_cases pass).2 with ⟨_, called, _, handed⟩ | ⟨_, told, called, _, handed⟩
  · rw [called, handed]
    exact render_writes _
  · rw [called, handed]
    exact renew_writes _ told

/-! ### Scenes -/

/-- Over valid data the axes can be written, once the scales are settled. -/
theorem resolve_writable {e : Engine σ ρ Rat} (sound : e.scene.basis.Sound) :
    Axes.Writable e.resolveScales.scene := by
  have valid := (Dataset.check_eq_ok _).mp sound.data
  have fits := sound.window
  simp only [Scene.basis] at valid fits
  constructor
  · intro regular
    cases shown : e.scene.window with
    | none =>
        -- no axis has a range without a window
        have none : (resolveAxis e.options e.scene.data none .x).isDegenerate = true := by
          unfold resolveAxis
          split <;> rfl
        simp only [resolveScales, shown, none] at regular
        cases regular
    | some w =>
        rw [shown] at fits
        exact ⟨w, shown, fits.2⟩
  · intro low high range
    have proper := proper_of_builtin e.options e.scene.data e.scene.window .y
      fun d w _ => Scale.ladderRange_proper e.scene.data w valid
    rw [show (resolveAxis e.options e.scene.data e.scene.window .y).range = some (low, high) from
      range] at proper
    exact proper.2.2

/-! ### Reachable engines -/

theorem call_writable {e : Engine σ ρ Rat} (sound : e.scene.basis.Sound) (c : Call Rat)
    (pass : e.settles c = true) : Axes.Writable (e.call c).engine.scene := by
  rw [settles_scene pass]
  exact resolve_writable (turn_basis_sound e c (settles_cases pass).1 sound)

section Reachable
variable {backend : Backend ρ Rat} {screen : ρ} {config : Config σ Rat} {data : Dataset Rat}

theorem opening_headed {h : Handover Rat} (handed : h ∈ openFrames backend screen config data) :
    ∃ first, LaidOut backend screen config data first ∧ Axes.labels first.options
      first.resolveScales.scene <+: (Display.inkOf h.frame .main).labels := by
  rcases opening_cases backend screen with ⟨nothing, _⟩ | ⟨first, start⟩
  · rw [nothing] at handed
    cases handed
  · rw [openFrames_laid start] at handed
    have written := opening_writes first (mem_unlessStopped handed).1
    exact ⟨first, start, written.frames h handed⟩

theorem opened_headed {e : Engine σ ρ Rat}
    (opened : openWith backend screen config data = .opened e) :
    Axes.labels e.options e.scene <+: e.surfaces.canvas.ink.labels := by
  obtain ⟨first, _, done⟩ := opened_cases opened
  obtain ⟨options, scene⟩ := opened_scaled done
  have written := opening_writes first (andThen_done (congrArg Outcome.fault done)).1
  rw [done, ← options, ← scene] at written
  exact written.canvas

theorem opening_covered {h : Handover Rat} (handed : h ∈ openFrames backend screen config data) :
    ∃ first, LaidOut backend screen config data first ∧ Axes.Covered first.options
      first.resolveScales.scene (Display.inkOf h.frame .main).labels := by
  obtain ⟨first, start, written⟩ := opening_headed handed
  exact ⟨first, start, Axes.covered (resolve_writable start.basis_sound) written⟩

theorem opened_covered {e : Engine σ ρ Rat}
    (opened : openWith backend screen config data = .opened e) :
    Axes.Covered e.options e.scene e.surfaces.canvas.ink.labels := by
  obtain ⟨first, start, done⟩ := opened_cases opened
  obtain ⟨_, scene⟩ := opened_scaled done
  exact Axes.covered (scene ▸ resolve_writable start.basis_sound) (opened_headed opened)

variable (backend screen config data)

/-- Every full pass labels both axes from end to end, whatever its plugins draw: the pass of an
opening, also if it is refused, and those of all later calls. -/
theorem passes_cover_axes :
    (∀ h ∈ openFrames backend screen config data, ∃ first,
      LaidOut backend screen config data first ∧ Axes.Covered first.options
        first.resolveScales.scene (Display.inkOf h.frame .main).labels) ∧
    ∀ e, openWith backend screen config data = .opened e →
      Axes.Covered e.options e.scene e.surfaces.canvas.ink.labels ∧
      ∀ calls c,
        ((e.run calls).settles c = true →
          Axes.Covered (e.run calls).options ((e.run calls).call c).engine.scene
            ((e.run calls).call c).engine.surfaces.canvas.ink.labels) ∧
        ∀ h ∈ (e.run calls).frames c, h.pass = .full →
          Axes.Covered (e.run calls).options ((e.run calls).call c).engine.scene
            (Display.inkOf h.frame .main).labels := by
  refine ⟨fun h handed => opening_covered handed, ?_⟩
  intro e opened
  refine ⟨opened_covered opened, ?_⟩
  intro calls c
  have sound := reach_basis_sound opened calls
  constructor
  · intro pass
    exact Axes.covered (call_writable sound c pass) (call_writes _ c pass).canvas
  · intro h handed full
    have pass := settles_of_full _ c h handed full
    exact Axes.covered (call_writable sound c pass) ((call_writes _ c pass).frames h handed)

end Reachable

/-- More columns than the axis has ticks for. -/
def manyColumns : Dataset Rat :=
  let columns := List.range 14
  .dense (columns.map fun n => (n : Rat)) (columns.map fun n => [(n : Rat) + 10])
    (columns.map fun _ => [1]) ⟨0, 4⟩

/-- Without the first column thirteen are left for nine ticks. There are the title, every second
column and twelve ticks. -/
theorem stepped_columns_labelled : ∃ e,
    openWith Recorder.backend .fresh (.standard .standard) manyColumns = .opened e ∧
    e.settles (.setWindow 1 13) = true ∧
    (e.call (.setWindow 1 13)).engine.surfaces.canvas.ink.labels.length = 1 + 7 + 12 ∧
    Axes.Covered e.options (e.call (.setWindow 1 13)).engine.scene
      (e.call (.setWindow 1 13)).engine.surfaces.canvas.ink.labels := by
  have evaluated : (openWith Recorder.backend .fresh (.standard .standard) manyColumns).passes
      (fun e => e.settles (.setWindow 1 13) && decide
        ((e.call (.setWindow 1 13)).engine.surfaces.canvas.ink.labels.length = 1 + 7 + 12)) =
        true := by
    decide +kernel
  obtain ⟨e, opened, test⟩ := (Opening.passes_iff _ _).mp evaluated
  rw [Bool.and_eq_true, decide_eq_true_eq] at test
  obtain ⟨_, later⟩ := (passes_cover_axes _ _ _ _).2 e opened
  exact ⟨e, opened, test.1, test.2, (later [] (.setWindow 1 13)).1 test.1⟩

end Engine
end LadderChart
