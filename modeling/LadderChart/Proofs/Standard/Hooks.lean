import LadderChart.Proofs.Engine.Frames

/-!
The hooks of the standard chart, phase by phase, as changes of the engine. None of them fails, so
every phase runs to its end, and what follows a turn is one frame handed over.
-/

namespace LadderChart

section Bodies
variable {σ α : Type} [Scalar α]

theorem HookBody.followedBy_quiet (first second : HookBody σ α) (memory : σ) (scene : Scene α)
    (surfaces : Surfaces α) (fine : (first memory scene surfaces).fault = none)
    (quiet : ∀ after, second (first memory scene surfaces).memory scene after =
      .quiet (first memory scene surfaces).memory) :
    first.followedBy second memory scene surfaces = first memory scene surfaces := by
  simp only [followedBy]
  generalize first memory scene surfaces = start at fine quiet ⊢
  simp only [fine, quiet, HookRun.quiet, List.append_nil]
  rw [← fine]

namespace BandLook

theorem init_fault (look : BandLook α) (slot : Slot σ Band) (memory : σ) (scene : Scene α)
    (surfaces : Surfaces α) : (look.init slot memory scene surfaces).fault = none := by
  unfold init
  split <;> rfl

theorem init_again (look : BandLook α) (memory : Band) (scene : Scene α)
    (surfaces after : Surfaces α) :
    look.init .whole (look.init .whole memory scene surfaces).memory scene after =
      .quiet (look.init .whole memory scene surfaces).memory := by
  cases known : memory.handle <;> simp [init, Slot.whole, Slot.modify, known, HookRun.quiet]

/-- However often the band is set up, it is set up once. -/
theorem init_times (look : BandLook α) (more : Nat) :
    (look.init .whole).times (more + 1) = look.init Slot.whole := by
  funext memory scene surfaces
  apply HookBody.followedBy_quiet
  · exact init_fault look .whole memory scene surfaces
  · intro after
    cases more with
    | zero => rfl
    | succ more =>
        rw [init_times look more]
        exact init_again look memory scene surfaces after

theorem setCursor_fault (slot : Slot σ Band) (memory : σ) (scene : Scene α)
    (surfaces : Surfaces α) : (setCursor slot memory scene surfaces).fault = none := by
  unfold setCursor
  simp only
  split
  · rfl
  · split
    · rfl
    · split <;> rfl

end BandLook

/-- The standard chart, with the init body of its highlight run several times. -/
def Config.repeated (times : Nat) (o : Options α) : Config Band α :=
  { Config.standard o with plugins :=
      [{ BandLook.standard.plugin .whole with init := (BandLook.standard.init .whole).times times },
        LadderStyle.standard.plugin LadderStyle.standardId] }

theorem Config.repeated_standard (more : Nat) (o : Options α) :
    Config.repeated (more + 1) o = Config.standard o := by
  simp only [repeated, BandLook.init_times]
  rfl

end Bodies

namespace Engine
variable {ρ α : Type} [Scalar α]

/-- The ink of a full pass: the axes, then the cells. The cursor plays no part in it. -/
def picture (o : Options α) (s : Scene α) : Canvas α :=
  (((Canvas.blank.run (Axes.strokes o s)).resetStyle).apply
    (.scope ((LadderStyle.standard.cells s).flatMap LadderStyle.strokes))).resetStyle

/-- The band is appended to the under layer and bound to the pointer, if it is not there yet. -/
def furnish (e : Engine Band ρ α) : Engine Band ρ α :=
  let run := BandLook.standard.init .whole e.memory e.scene e.surfaces
  { e with memory := run.memory, surfaces := e.surfaces.run run.actions }

/-- The highlight is told about the cursor. -/
def tell (e : Engine Band ρ α) : Engine Band ρ α :=
  let run := BandLook.setCursor .whole e.memory e.scene e.surfaces
  { e with memory := run.memory, surfaces := e.surfaces.run run.actions }

/-- A full pass up to its frame. -/
def sketch (e : Engine Band ρ α) : Engine Band ρ α :=
  { e.resolveScales with
    surfaces := { e.surfaces with canvas := picture e.options e.resolveScales.scene } }

abbrev Standard (e : Engine Band ρ α) : Prop := e.plugins = standardPlugins .whole

variable {e : Engine Band ρ α} (standard : e.Standard)
include standard

theorem runInit_standard : runInit e = .done e.furnish := by
  have fine := BandLook.init_fault BandLook.standard .whole e.memory e.scene e.surfaces
  unfold runInit
  rw [standard]
  simp only [standardPlugins, runHooks, BandLook.plugin, fine]
  rfl

theorem runSetCursor_standard : runSetCursor e = .done e.tell := by
  have fine := BandLook.setCursor_fault .whole e.memory e.scene e.surfaces
  unfold runSetCursor
  rw [standard]
  simp only [standardPlugins, runHooks, BandLook.plugin, fine]
  rfl

theorem runDraw_standard : runDraw e.resolveScales.drawAxes = .done e.sketch := by
  have same : e.resolveScales.drawAxes.plugins = standardPlugins .whole := standard
  unfold runDraw
  rw [same]
  rfl

theorem render_standard : e.render = e.sketch.paint := by
  unfold render
  rw [runDraw_standard standard]
  rfl

theorem renew_standard : e.renew = e.tell.sketch.paint := by
  have told : e.tell.Standard := standard
  unfold renew
  rw [runSetCursor_standard standard]
  exact render_standard told

theorem announce_standard : e.announce = e.tell.repaintIfDirty := by
  unfold announce
  rw [runSetCursor_standard standard]
  rfl

theorem opening_standard : e.opening = e.resolveScales.furnish.sketch.paint := by
  have resolved : e.resolveScales.Standard := standard
  have furnished : e.resolveScales.furnish.Standard := standard
  unfold opening
  rw [runInit_standard resolved]
  exact render_standard furnished

theorem renderFrames_standard : e.renderFrames = e.sketch.paintFrames := by
  unfold renderFrames
  rw [runDraw_standard standard]
  rfl

theorem announceFrames_standard : e.announceFrames = e.tell.repaintFrames := by
  unfold announceFrames
  rw [runSetCursor_standard standard]
  rfl

theorem renewFrames_standard : e.renewFrames = e.tell.sketch.paintFrames := by
  have told : e.tell.Standard := standard
  unfold renewFrames
  rw [runSetCursor_standard standard]
  exact renderFrames_standard told

theorem openingFrames_standard : e.openingFrames = e.resolveScales.furnish.sketch.paintFrames := by
  have resolved : e.resolveScales.Standard := standard
  have furnished : e.resolveScales.furnish.Standard := standard
  unfold openingFrames
  rw [runInit_standard resolved]
  exact renderFrames_standard furnished

end Engine
end LadderChart
