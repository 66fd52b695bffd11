import LadderChart.Proofs.Chart.Options
import LadderChart.Proofs.Engine.Scales
import LadderChart.Proofs.Engine.Sound
import LadderChart.Proofs.Plot.Guarded

/-!
No program stops at an engine. A guarded engine does what an engine does, but through the guarded
readings of scales, axes and pointer, and of the options it is opened with; plugins, rules and
backend are taken as they are. Reachable engines keep what the guards ask for, in the middle of a
call and after calls that failed, so the guarded engine comes to what the plain one does.
-/

namespace LadderChart

namespace Guarded
variable {σ ρ α : Type} [Scalar α]

def andThen (o : Outcome σ ρ α) (next : Engine σ ρ α → Guarded (Outcome σ ρ α)) :
    Guarded (Outcome σ ρ α) :=
  match o.fault with
  | some _ => .ok o
  | none => next o.engine

def resolveScales (e : Engine σ ρ α) : Guarded (Engine σ ρ α) := do
  let x ← resolveAxis e.options e.scene.data e.scene.window .x
  let y ← resolveAxis e.options e.scene.data e.scene.window .y
  return { e with scene := { e.scene with xScale := x, yScale := y } }

def drawAxes (e : Engine σ ρ α) : Guarded (Engine σ ρ α) := do
  let strokes ← axes e.options e.scene
  return { e with surfaces := { e.surfaces with canvas := Canvas.blank.run strokes } }

def render (e : Engine σ ρ α) : Guarded (Outcome σ ρ α) := do
  let resolved ← resolveScales e
  let drawn ← drawAxes resolved
  return (Engine.runDraw drawn).andThen Engine.paint

/-! ### Calls -/

def setData (e : Engine σ ρ α) (data : Dataset α) : Guarded (Outcome σ ρ α) :=
  match data.check with
  | .error fault => .ok ⟨e, some fault⟩
  | .ok () =>
      andThen (Engine.letGo { e with scene := { e.scene with
        data := data, window := Window.full? data.length } }) render

def zoom (e : Engine σ ρ α) (w : Window) : Guarded (Outcome σ ρ α) :=
  andThen (Engine.letGo { e with scene := { e.scene with window := some w } }) render

def setWindow (e : Engine σ ρ α) (first last : Nat) : Guarded (Outcome σ ρ α) :=
  match Window.make first last e.scene.data.length with
  | .error fault => .ok ⟨e, some fault⟩
  | .ok w => zoom e w

def resetWindow (e : Engine σ ρ α) : Guarded (Outcome σ ρ α) :=
  match Window.full? e.scene.data.length with
  | some w => setWindow e w.first w.last
  | none => .ok (.done e)

def pointerMove (e : Engine σ ρ α) (x y : α) : Guarded (Outcome σ ρ α) := do
  let entered := if e.surfaces.pointer.hovered then e else e.hover true
  let index ← indexAt entered.scene x y
  let moved := entered.setCursor ⟨index, some (x, y)⟩
  return (moved.setCrosshair (moved.scene.crosshair e.options.crosshair x y)).announce

def call (e : Engine σ ρ α) : Call α → Guarded (Outcome σ ρ α)
  | .enter => .ok e.pointerEnter
  | .move x y => pointerMove e x y
  | .leave => .ok e.pointerLeave
  | .setData data => setData e data
  | .setWindow first last => setWindow e first last
  | .resetWindow => resetWindow e
  | .render => render e

def run (e : Engine σ ρ α) : List (Call α) → Guarded (Engine σ ρ α)
  | [] => .ok e
  | c :: rest => do
      let outcome ← call e c
      run outcome.engine rest

/-! ### Opening -/

def start (e : Engine σ ρ α) : Guarded (Opening σ ρ α) := do
  let resolved ← resolveScales e
  let outcome ← andThen (Engine.runInit resolved) render
  match outcome.fault with
  | some fault => return .refused outcome.engine.memory outcome.engine.screen fault
  | none => return .opened outcome.engine

/-- The distributions are looked up under the keys of the axes. -/
def openWith (backend : Backend ρ α) (screen : ρ) (config : Config σ α) (data : Dataset α) :
    Guarded (Opening σ ρ α) :=
  match Plugin.checkIds [] config.plugins with
  | .error fault => .ok (.refused config.memory screen fault)
  | .ok () =>
      match Plugin.runOpts config.memory config.options config.plugins with
      | (memory, .error fault) => .ok (.refused memory screen fault)
      | (memory, .ok o) =>
          match Engine.layOut o data with
          | .error fault => .ok (.refused memory screen fault)
          | .ok box => do
              let x ← lookup o.scales Axis.x.key
              let y ← lookup o.scales Axis.y.key
              start
                { options := o
                  plugins := config.plugins
                  memory := memory
                  backend := backend
                  screen := screen
                  scene :=
                    { viewport := o.viewport
                      pixelRatio := o.pixelRatio
                      box := box
                      data := data
                      window := Window.full? data.length
                      xScale := .degenerate x.distribution
                      yScale := .degenerate y.distribution
                      cursor := .away }
                  surfaces := .blank }

/-! ### Passed guards -/

theorem resolveScales_eq (e : Engine σ ρ α) : resolveScales e = .ok e.resolveScales := by
  simp only [resolveScales, resolveAxis_eq, ok_bind]
  rfl

/-- What the guards ask of a scene. -/
structure Passes (s : Scene Float) : Prop where
  fits : Window.Fits s.data.length s.window
  words : s.data.length ≤ Scalar.largestIndex
  charted : s.Charted

theorem Passes.inside {s : Scene Float} (passes : Passes s) (w : Window)
    (shown : s.window = some w) : w.last < s.data.length := by
  have fits := passes.fits
  rw [shown] at fits
  exact fits.2

section Passing
variable {e : Engine σ ρ Float}

theorem drawAxes_eq (passes : Passes e.scene) : drawAxes e = .ok e.drawAxes := by
  have words : ∀ w, e.scene.window = some w → w.size ≤ Scalar.largestIndex := by
    intro w shown
    have inside := passes.inside w shown
    have word := passes.words
    rw [Window.size, Window.span]
    omega
  simp only [drawAxes, axes_eq passes.charted e.options words, ok_bind]
  rfl

theorem render_eq (passes : Passes e.scene) : render e = .ok e.render := by
  have resolved : Passes e.resolveScales.scene :=
    ⟨passes.fits, passes.words, passes.charted.same rfl rfl rfl⟩
  simp only [render, resolveScales_eq, drawAxes_eq resolved, ok_bind]
  rfl

/-- Hooks leave the scene as it is, whether one of them fails or not. -/
theorem andThen_render {o : Outcome σ ρ Float} (passes : Passes o.engine.scene) :
    andThen o render = .ok (o.andThen Engine.render) := by
  unfold andThen Outcome.andThen
  cases o.fault with
  | some fault => rfl
  | none => exact render_eq passes

theorem letGo_render (passes : Passes e.scene) :
    andThen e.letGo render = .ok (e.letGo.andThen Engine.render) := by
  apply andThen_render
  obtain ⟨_, scene⟩ := Engine.runHooks_scene .setCursor Plugin.setCursor id e.plugins
    { e with scene := { e.scene with cursor := ⟨none, e.scene.cursor.pointer⟩ } }
  have same : e.letGo.engine.scene =
      { e.scene with cursor := ⟨none, e.scene.cursor.pointer⟩ } := scene
  rw [same]
  exact ⟨passes.fits, passes.words, passes.charted.same rfl rfl rfl⟩

theorem setWindow_eq (passes : Passes e.scene) (first last : Nat) :
    setWindow e first last = .ok (e.setWindow first last) := by
  unfold setWindow Engine.setWindow
  cases made : Window.make first last e.scene.data.length with
  | error fault => rfl
  | ok w =>
      exact letGo_render ⟨Window.make_fits first last _ w made, passes.words,
        passes.charted.same rfl rfl rfl⟩

theorem call_eq (passes : Passes e.scene) (c : Call Float)
    (fits : ∀ data, c = .setData data → data.length ≤ Scalar.largestIndex) :
    call e c = .ok (e.call c) := by
  cases c with
  | enter => rfl
  | leave => rfl
  | move x y =>
      have same : (if e.surfaces.pointer.hovered then e else e.hover true).scene = e.scene := by
        split <;> rfl
      have index : indexAt (if e.surfaces.pointer.hovered then e else e.hover true).scene x y =
          .ok (e.indexAt? x y) := by
        rw [same]
        exact indexAt_eq e.scene passes.inside x y
      simp only [call, pointerMove, index, ok_bind]
      rfl
  | setData data =>
      simp only [call, setData, Engine.call, Engine.setData]
      cases data.check with
      | error fault => rfl
      | ok _ =>
          exact letGo_render ⟨Window.full_fits data.length, fits data rfl,
            passes.charted.same rfl rfl rfl⟩
  | setWindow first last => exact setWindow_eq passes first last
  | resetWindow =>
      simp only [call, resetWindow, Engine.call, Engine.resetWindow]
      cases Window.full? e.scene.data.length with
      | none => rfl
      | some w => exact setWindow_eq passes w.first w.last
  | render => exact render_eq passes

/-- A run passes its guards if all the engines on the way do. -/
theorem run_eq (calls : List (Call Float))
    (passes : ∀ before after, calls = before ++ after → Passes (e.run before).scene)
    (fits : ∀ data, Call.setData data ∈ calls → data.length ≤ Scalar.largestIndex) :
    run e calls = .ok (e.run calls) := by
  induction calls generalizing e with
  | nil => rfl
  | cons c rest ih =>
      have first : Passes e.scene := passes [] (c :: rest) rfl
      have called := call_eq first c fun data same => fits data (same ▸ List.mem_cons_self)
      simp only [run, called, ok_bind]
      refine ih ?_ fun data member => fits data (List.mem_cons_of_mem c member)
      intro before after split
      exact passes (c :: before) after (congrArg (c :: ·) split)

theorem start_eq (passes : Passes e.scene) : start e = .ok e.start := by
  have resolved : Passes e.resolveScales.scene :=
    ⟨passes.fits, passes.words, passes.charted.same rfl rfl rfl⟩
  obtain ⟨_, scene⟩ := Engine.runHooks_scene .init Plugin.init id e.plugins e.resolveScales
  have begun : Passes (Engine.runInit e.resolveScales).engine.scene := by
    rw [show (Engine.runInit e.resolveScales).engine.scene = e.resolveScales.scene from scene]
    exact resolved
  simp only [start, resolveScales_eq, andThen_render begun, ok_bind]
  unfold Engine.start
  simp only
  generalize e.resolveScales.runInit.andThen Engine.render = outcome
  cases outcome.fault <;> rfl

end Passing

section Opening
variable {backend : Backend ρ Float} {screen : ρ} {config : Config σ Float} {data : Dataset Float}

theorem openWith_eq (words : data.length ≤ Scalar.largestIndex) :
    openWith backend screen config data = .ok (Engine.openWith backend screen config data) := by
  unfold openWith Engine.openWith
  cases Plugin.checkIds [] config.plugins with
  | error fault => rfl
  | ok _ =>
      simp only
      obtain ⟨memory, o⟩ := Plugin.runOpts config.memory config.options config.plugins
      cases o with
      | error fault => rfl
      | ok o =>
          simp only
          cases laid : Engine.layOut o data with
          | error fault => rfl
          | ok box =>
              obtain ⟨checked, _, boxed⟩ := Engine.layOut_eq_ok o data box laid
              obtain ⟨x, foundX, _⟩ := o.check_scale checked .x
              obtain ⟨y, foundY, _⟩ := o.check_scale checked .y
              have first : Passes (Engine.firstScene o box data) :=
                ⟨Window.full_fits data.length, words, Options.charted checked boxed rfl rfl⟩
              -- the check of the options found both scales, so neither lookup is stopped
              have scene : Engine.firstScene o box data =
                  { viewport := o.viewport
                    pixelRatio := o.pixelRatio
                    box := box
                    data := data
                    window := Window.full? data.length
                    xScale := .degenerate x.distribution
                    yScale := .degenerate y.distribution
                    cursor := .away } := by
                simp only [Engine.firstScene, Engine.distributionOf, foundX, foundY, Option.map_some,
                  Option.getD_some]
              simp only [lookup_found foundX, lookup_found foundY, ok_bind]
              rw [← scene]
              exact start_eq first

theorem reach_passes {e : Engine σ ρ Float}
    (opened : Engine.openWith backend screen config data = .opened e)
    (words : data.length ≤ Scalar.largestIndex) (calls : List (Call Float))
    (fits : ∀ data, Call.setData data ∈ calls → data.length ≤ Scalar.largestIndex) :
    Passes (e.run calls).scene := by
  obtain ⟨sound, short⟩ := Engine.reach_sound_words opened words calls fits
  exact ⟨sound.window, short, Engine.reach_charted opened calls⟩

/-- No program stops at an engine over doubles, however it is configured, whatever data it is given
and whatever is called. Opening it passes every guard, and so does every run of calls, those that
fail included; in every engine reached, the column at any position and what is selected there are
worked out past the guards, even where the position is no number or infinite. The range of the
rungs can be asked for with any window. -/
theorem never_stops (words : data.length ≤ Scalar.largestIndex) :
    openWith backend screen config data = .ok (Engine.openWith backend screen config data) ∧
    (∀ e, Engine.openWith backend screen config data = .opened e → ∀ calls,
      (∀ data, Call.setData data ∈ calls → data.length ≤ Scalar.largestIndex) →
        run e calls = .ok (e.run calls) ∧
        ∀ x y, indexAt (e.run calls).scene x y = .ok ((e.run calls).indexAt? x y) ∧
          select (e.run calls).scene x y = .ok ((e.run calls).select? x y)) ∧
    ∀ (ladders : Matrix Float) (w : Window),
      ladderRange ladders w = .ok (Scale.ladderRange ladders w) := by
  refine ⟨openWith_eq words, ?_, ladderRange_eq⟩
  intro e opened calls fits
  have passes := reach_passes opened words calls fits
  refine ⟨run_eq calls ?_ fits, fun x y => ⟨?_, ?_⟩⟩
  · rintro before after rfl
    exact reach_passes opened words before fun data member =>
      fits data (List.mem_append_left after member)
  · exact indexAt_eq _ passes.inside x y
  · exact select_eq _ passes.inside passes.words x y

end Opening
/-- An update that stops half way, a window past the data it left, and a pointer that is nowhere. -/
theorem narrow_never_stops : ∃ e, Engine.narrowChart = .opened e ∧
    (e.call (.setData Engine.threeColumns)).fault.isSome = true ∧
    run e [.setData Engine.threeColumns, .setWindow 1 3, .move (0.0 / 0.0) (1.0 / 0.0)] =
      .ok (e.run [.setData Engine.threeColumns, .setWindow 1 3, .move (0.0 / 0.0) (1.0 / 0.0)]) ∧
    select (e.run [.setData Engine.threeColumns]).scene (0.0 / 0.0) (1.0 / 0.0) =
      .ok ((e.run [.setData Engine.threeColumns]).select? (0.0 / 0.0) (1.0 / 0.0)) := by
  have evaluated : Engine.narrowChart.passes (fun e =>
      (e.call (.setData Engine.threeColumns)).fault.isSome) = true := by decide +kernel
  obtain ⟨e, opened, failed⟩ := (Opening.passes_iff _ _).mp evaluated
  obtain ⟨_, reached, _⟩ := @never_stops (Desk Float) (Recorder Float) Recorder.backend .fresh
    ⟨.standard, [Engine.narrow.plugin], .fresh 0⟩ twoColumns (by decide)
  have fits : ∀ data : Dataset Float, data = Engine.threeColumns →
      data.length ≤ Scalar.largestIndex := by
    rintro data rfl
    decide
  obtain ⟨ran, _⟩ := reached e opened
    [.setData Engine.threeColumns, .setWindow 1 3, .move (0.0 / 0.0) (1.0 / 0.0)]
    fun data member => fits data (by simpa using member)
  obtain ⟨_, asked⟩ := reached e opened [.setData Engine.threeColumns]
    fun data member => fits data (by simpa using member)
  exact ⟨e, opened, failed, ran, (asked (0.0 / 0.0) (1.0 / 0.0)).2⟩

end Guarded
end LadderChart
