import LadderChart.Proofs.Engine.Scales
import LadderChart.Proofs.Engine.Schedule
import LadderChart.Proofs.Ink.Scopes
import LadderChart.Proofs.Overlay.Shown

/-!
Plugins draw apart. The canvas is settled before every draw hook, so each of them starts from the
standard style with nothing saved, whatever was done to the canvas before. A hook whose strokes do
not depend on the canvas then adds the ink that it would draw alone, and a full pass leaves the
axes with this ink of all plugins over them, in the order of their registration.
-/

namespace LadderChart

/-- The hook draws without looking at the canvas. -/
def HookBody.Blind {σ α : Type} (body : HookBody σ α) : Prop :=
  ∀ memory scene surfaces canvas,
    body memory scene { surfaces with canvas := canvas } = body memory scene surfaces

/-- A draw hook finds a fresh canvas. -/
def Visit.FindsFresh {α : Type} [Scalar α] : Visit α → Prop
  | .hook _ .draw _ surfaces => surfaces.canvas.Fresh
  | _ => True

def Action.stroke? {α : Type} : Action α → Option (Stroke α)
  | .draw stroke => some stroke
  | _ => none

/-- The ink of a hook that runs alone, on a canvas of its own. -/
def Entry.solo {σ α : Type} [Scalar α] : Entry σ α → Layer α
  | .opts _ _ _ => .blank .main
  | .act p hook memory scene surfaces =>
      let own : Surfaces α := { surfaces with canvas := .blank }
      (own.run (p.body hook memory scene own).actions).canvas.ink

theorem Surfaces.run_canvas {α : Type} [Scalar α] (s : Surfaces α) (actions : List (Action α)) :
    (s.run actions).canvas = s.canvas.run (actions.filterMap Action.stroke?) := by
  induction actions generalizing s with
  | nil => rfl
  | cons a rest ih =>
      have later := ih (s.apply a)
      cases a <;> exact later

theorem Axes.strokes_fresh {α : Type} [Scalar α] (o : Options α) (s : Scene α) :
    (Canvas.blank.run (Axes.strokes o s)).Fresh := by
  apply Canvas.blank_fresh.scope
  have title : ∀ stroke ∈ Axes.titleStrokes o s, Canvas.Flat stroke := by
    unfold Axes.titleStrokes
    split <;> simp [Canvas.Flat]
  simp only [List.forall_mem_append, List.forall_mem_cons, List.forall_mem_map]
  simpa [Canvas.Flat] using title

namespace Engine
variable {σ ρ α : Type} [Scalar α]

def axesInk (e : Engine σ ρ α) : Layer α := (Canvas.blank.run (Axes.strokes e.options e.scene)).ink

def passEntries (e : Engine σ ρ α) : List (Entry σ α) :=
  phaseEntries .draw settleCanvas e.plugins e.resolveScales.drawAxes

/-! ### Where draw hooks start -/

theorem draw_starts_fresh (plugins : List (Plugin σ α)) (e : Engine σ ρ α)
    (fresh : e.surfaces.canvas.Fresh) (visit : Visit α)
    (entered : visit ∈ phaseVisits .draw Plugin.draw settleCanvas plugins e) :
    visit.FindsFresh := by
  induction plugins generalizing e with
  | nil => cases entered
  | cons p rest ih =>
      simp only [phaseVisits] at entered
      rcases List.mem_cons.mp entered with rfl | later
      · exact fresh
      · split at later
        · cases later
        -- the canvas was settled after the hook before
        · exact ih _ (Canvas.resetStyle_fresh _) later

theorem renderVisits_fresh (e : Engine σ ρ α) (visit : Visit α)
    (entered : visit ∈ renderVisits e) : visit.FindsFresh :=
  draw_starts_fresh _ _ (Axes.strokes_fresh _ _) visit entered

theorem shows_fresh {hook : Hook} {scene : Scene α} {visit : Visit α} (other : hook ≠ .draw)
    (shown : visit.Shows hook scene) : visit.FindsFresh := by
  obtain ⟨id, surfaces, rfl⟩ := shown
  cases hook with
  | draw => exact absurd rfl other
  | _ => trivial

theorem renewVisits_fresh (e : Engine σ ρ α) (visit : Visit α) (entered : visit ∈ renewVisits e) :
    visit.FindsFresh := by
  rcases List.mem_append.mp entered with told | drawn
  · exact shows_fresh (by decide) (cursorVisits_shown e visit told)
  · exact renderVisits_fresh _ visit (mem_unlessFailed _ _ visit drawn)

theorem visits_fresh (e : Engine σ ρ α) (c : Call α) (visit : Visit α)
    (entered : visit ∈ e.visits c) : visit.FindsFresh := by
  rw [visits_eq] at entered
  split at entered
  · cases entered
  · cases c with
    | enter => cases entered
    | move x y => exact shows_fresh (by decide) (cursorVisits_shown _ visit entered)
    | leave => exact shows_fresh (by decide) (cursorVisits_shown _ visit entered)
    | setData data => exact renewVisits_fresh _ visit entered
    | setWindow first last => exact renewVisits_fresh _ visit entered
    | resetWindow =>
        simp only [followVisits] at entered
        split at entered
        · cases entered
        · exact renewVisits_fresh _ visit entered
    | render => exact renderVisits_fresh _ visit entered

theorem openVisits_fresh (backend : Backend ρ α) (screen : ρ) (config : Config σ α)
    (data : Dataset α) (visit : Visit α) (entered : visit ∈ openVisits backend screen config data) :
    visit.FindsFresh := by
  have early : visit ∈ optsVisits config.memory config.options config.plugins →
      visit.FindsFresh := by
    intro opts
    obtain ⟨id, before, rfl⟩ := optsVisits_shown _ _ _ visit opts
    trivial
  rcases opening_cases backend screen with ⟨_, nothing | opts⟩ | ⟨first, start⟩
  · rw [nothing] at entered
    cases entered
  · exact early (opts ▸ entered)
  · rw [openVisits_laid start] at entered
    rcases List.mem_append.mp entered with opts | hooks
    · exact early opts
    · rcases List.mem_append.mp hooks with begun | drawn
      · exact shows_fresh (by decide) (phaseVisits_shown _ _ _ _ first.resolveScales visit begun)
      · exact renderVisits_fresh _ visit (mem_unlessFailed _ _ visit drawn)

/-! ### What they leave -/

/-- One hook that does not look at the canvas adds its ink, and the canvas is settled after it. -/
theorem blind_adds {p : Plugin σ α} (blind : p.draw.Blind) (e : Engine σ ρ α)
    (fresh : e.surfaces.canvas.Fresh) :
    (settleCanvas (e.surfaces.run
      (p.draw e.memory e.scene e.surfaces).actions)).canvas.ink =
        e.surfaces.canvas.ink.append (Entry.act p .draw e.memory e.scene e.surfaces).solo := by
  -- the hook does the same alone, so both canvases are drawn on by one list of strokes
  have alone := blind e.memory e.scene e.surfaces .blank
  change (e.surfaces.run _).canvas.ink = e.surfaces.canvas.ink.append
    (Surfaces.run _ (p.draw e.memory e.scene { e.surfaces with canvas := .blank }).actions).canvas.ink
  rw [alone, Surfaces.run_canvas, Surfaces.run_canvas]
  exact fresh.run_ink _

theorem draws_stack (plugins : List (Plugin σ α)) (blind : ∀ p ∈ plugins, p.draw.Blind)
    (e : Engine σ ρ α) (fresh : e.surfaces.canvas.Fresh)
    (passed : (runHooks .draw Plugin.draw settleCanvas plugins e).fault = none) :
    (runHooks .draw Plugin.draw settleCanvas plugins e).engine.surfaces.canvas.Fresh ∧
      (runHooks .draw Plugin.draw settleCanvas plugins e).engine.surfaces.canvas.ink =
        e.surfaces.canvas.ink.stack ((phaseEntries .draw settleCanvas plugins e).map
          Entry.solo) := by
  -- the ink so far is a parameter: each hook adds to that of those before it
  induction plugins generalizing e with
  | nil => exact ⟨fresh, (Layer.stack_nil _).symm⟩
  | cons p rest ih =>
      obtain ⟨first, others⟩ := List.forall_mem_cons.mp blind
      have added := blind_adds first e fresh
      have same : p.body .draw = p.draw := rfl
      simp only [runHooks, phaseEntries, same] at passed ⊢
      cases failed : (p.draw e.memory e.scene e.surfaces).fault with
      | some source => simp [failed] at passed
      | none =>
          simp only [failed] at passed
          obtain ⟨settled, ink⟩ := ih others _ (Canvas.resetStyle_fresh _) passed
          refine ⟨settled, ?_⟩
          rw [List.map_cons, Layer.stack_cons, ← added]
          exact ink

/-! ### Full passes -/

/-- A pass that ended well. The draw hooks ran on all plugins in turn, from the memory that the pass
found to the one that it left; the canvas is settled, and its ink is that of the axes and over it,
plugin by plugin, what each hook draws alone. This ink is the main layer of the frame that was
handed over. -/
def DrawnApart (found : Engine σ ρ α) (visits : List (Visit α)) (frames : List (Handover α))
    (reached : Engine σ ρ α) : Prop :=
  ∃ told ran, visits = told ++ ran.map Entry.visit ∧
    Trace (phase .draw reached.plugins) (found.memory, found.options) ran
      (reached.memory, reached.options) none ∧
    reached.surfaces.canvas.Fresh ∧
    reached.surfaces.canvas.ink = reached.axesInk.stack (ran.map Entry.solo) ∧
    ∃ h ∈ frames, h.pass = .full ∧ h.frame.layer? .main = some reached.surfaces.canvas.ink

omit [Scalar α] in
theorem andThen_done {o : Outcome σ ρ α} {next : Engine σ ρ α → Outcome σ ρ α}
    (done : (o.andThen next).fault = none) : o.fault = none ∧ o.andThen next = next o.engine := by
  unfold Outcome.andThen at done ⊢
  cases failed : o.fault with
  | some fault => simp [failed] at done
  | none => exact ⟨rfl, rfl⟩

theorem fullFrame_main (e : Engine σ ρ α) (main : e.surfaces.canvas.ink.kind = .main) :
    e.fullFrame.layer? .main = some e.surfaces.canvas.ink := by
  simp [fullFrame, Frame.full, Frame.setLayer, Frame.replace, Frame.layer?, underInk, overInk,
    Layer.blank, main]

theorem render_apart (e : Engine σ ρ α) (blind : ∀ p ∈ e.plugins, p.draw.Blind)
    (done : e.render.fault = none) (told : List (Visit α)) :
    DrawnApart e (told ++ e.renderVisits) e.renderFrames e.render.engine := by
  have steady := (render_works e fun p _ => p.keeps_any).steady
  obtain ⟨drawn, handsOn⟩ := andThen_done done
  have painted : e.render = (runDraw e.resolveScales.drawAxes).engine.paint := handsOn
  have stacked :=
    draws_stack e.plugins blind e.resolveScales.drawAxes (Axes.strokes_fresh _ _) drawn
  have ink : (runDraw e.resolveScales.drawAxes).engine.surfaces.canvas.ink =
      e.resolveScales.drawAxes.surfaces.canvas.ink.stack (e.passEntries.map Entry.solo) :=
    stacked.2
  have canvas : e.render.engine.surfaces.canvas =
      (runDraw e.resolveScales.drawAxes).engine.surfaces.canvas := by
    rw [painted]
    exact accepted_canvas _ _
  have memory : e.render.engine.memory = (runDraw e.resolveScales.drawAxes).engine.memory := by
    rw [painted]
    exact accepted_memory _ _
  have axes : e.render.engine.axesInk = e.resolveScales.drawAxes.surfaces.canvas.ink := by
    unfold axesInk
    rw [steady.options, render_scene]
    rfl
  -- the frame takes the canvas as its main layer by the kind of its ink
  have main : (runDraw e.resolveScales.drawAxes).engine.surfaces.canvas.ink.kind = .main := by
    rw [ink]
    exact Canvas.run_kind _ _
  have trace : Trace (phase .draw e.render.engine.plugins) (e.memory, e.options) e.passEntries
      (e.render.engine.memory, e.render.engine.options) none := by
    rw [steady.plugins, steady.options, memory, ← drawn]
    exact runHooks_trace .draw settleCanvas e.plugins e.resolveScales.drawAxes e.options
  refine ⟨told, e.passEntries, ?_, trace, canvas ▸ stacked.1, ?_, ?_⟩
  · exact congrArg (told ++ ·) (phaseEntries_visits .draw settleCanvas e.plugins _)
  · rw [canvas, axes]
    exact ink
  · have handed : e.renderFrames = paintFrames (runDraw e.resolveScales.drawAxes).engine := by
      simp only [renderFrames, unlessStopped, drawn]
    rw [handed, canvas]
    exact ⟨_, List.mem_singleton_self _, rfl, fullFrame_main _ main⟩

theorem renew_apart (e : Engine σ ρ α) (blind : ∀ p ∈ e.plugins, p.draw.Blind)
    (done : e.renew.fault = none) :
    DrawnApart (runSetCursor e).engine e.renewVisits e.renewFrames e.renew.engine := by
  have steady := (runSetCursor_works e fun p _ => p.keeps_any).steady
  obtain ⟨told, pass⟩ := andThen_done done
  unfold renew at done ⊢
  rw [pass] at done ⊢
  simp only [renewVisits, renewFrames, unlessFailed, unlessStopped, told]
  exact render_apart _ (steady.plugins ▸ blind) done _

theorem opening_apart (e : Engine σ ρ α) (blind : ∀ p ∈ e.plugins, p.draw.Blind)
    (done : e.opening.fault = none) (earlier : List (Visit α)) :
    DrawnApart (runInit e.resolveScales).engine (earlier ++ e.openingVisits) e.openingFrames
      e.opening.engine := by
  have steady := (runInit_works e.resolveScales fun p _ => p.keeps_any).steady
  obtain ⟨begun, pass⟩ := andThen_done done
  unfold opening at done ⊢
  rw [pass] at done ⊢
  simp only [openingVisits, openingFrames, unlessFailed, unlessStopped, begun]
  rw [← List.append_assoc]
  exact render_apart _ (steady.plugins ▸ blind) done _

/-- The engine that the full pass of a call finds. An update tells the plugins first. -/
def passing (e : Engine σ ρ α) (c : Call α) : Engine σ ρ α :=
  if c.isRender then e.turn c else (runSetCursor (e.turn c)).engine

/-- What a call does if it comes to a full pass: the pass alone, or after it told the plugins. -/
theorem settles_cases {e : Engine σ ρ α} {c : Call α} (pass : e.settles c = true) :
    e.refusal c = none ∧
      ((c.isRender = true ∧ e.call c = (e.turn c).render ∧ e.visits c = (e.turn c).renderVisits ∧
          e.frames c = (e.turn c).renderFrames) ∨
        (c.isRender = false ∧ (runSetCursor (e.turn c)).fault = none ∧
          e.call c = (e.turn c).renew ∧ e.visits c = (e.turn c).renewVisits ∧
          e.frames c = (e.turn c).renewFrames)) := by
  cases refused : e.refusal c with
  | some fault => simp [settles, refused] at pass
  | none =>
      have called : e.call c = (e.turn c).follow c := by simp only [call_eq, refused]
      have entered : e.visits c = (e.turn c).followVisits c := by simp only [visits_eq, refused]
      have handed : e.frames c = (e.turn c).followFrames c := by simp only [frames_eq, refused]
      simp only [settles, refused, Option.isNone_none, Bool.true_and] at pass
      rw [called, entered, handed]
      refine ⟨rfl, ?_⟩
      cases c with
      | setData data =>
          exact .inr ⟨rfl, by simpa [updates, Call.isRender] using pass, rfl, rfl, rfl⟩
      | setWindow first last =>
          exact .inr ⟨rfl, by simpa [updates, Call.isRender] using pass, rfl, rfl, rfl⟩
      | resetWindow =>
          have filled : (e.turn .resetWindow).scene.data.length ≠ 0 ∧
              (runSetCursor (e.turn .resetWindow)).fault = none := by
            rw [turn_reset_length]
            simpa [updates, Call.isRender] using pass
          exact .inr ⟨rfl, filled.2, if_neg filled.1, if_neg filled.1, if_neg filled.1⟩
      | render => exact .inl ⟨rfl, rfl, rfl, rfl⟩
      | _ => simp [updates, Call.isRender] at pass

theorem call_apart (e : Engine σ ρ α) (c : Call α) (blind : ∀ p ∈ e.plugins, p.draw.Blind)
    (pass : e.settles c = true) (done : (e.call c).fault = none) :
    DrawnApart (e.passing c) (e.visits c) (e.frames c) (e.call c).engine := by
  have seeing : ∀ p ∈ (e.turn c).plugins, p.draw.Blind := by
    rw [(turn_setting e c).2.1]
    exact blind
  obtain ⟨_, ⟨alone, called, entered, handed⟩ | ⟨after, _, called, entered, handed⟩⟩ :=
    settles_cases pass
  · rw [called] at done ⊢
    rw [entered, handed, passing, if_pos alone]
    exact render_apart _ seeing done []
  · rw [called] at done ⊢
    rw [entered, handed, passing, after]
    exact renew_apart _ seeing done

/-- No drawing state passes from one plugin to the next. Whatever was done to the canvas before, a
draw hook finds the standard style and nothing saved; and if no draw hook looks at the canvas, a
full pass that ends well, in an opening or in a call, leaves a settled canvas whose ink is that of
the axes and then, plugin by plugin, what each hook draws alone on a fresh canvas. -/
theorem drawing_state_never_leaks :
    (∀ (backend : Backend ρ α) (screen : ρ) (config : Config σ α) (data : Dataset α),
      (∀ visit ∈ openVisits backend screen config data, visit.FindsFresh) ∧
      ∀ e, (∀ p ∈ config.plugins, p.draw.Blind) →
        openWith backend screen config data = .opened e →
        ∃ first, LaidOut backend screen config data first ∧
          DrawnApart (runInit first.resolveScales).engine (openVisits backend screen config data)
            (openFrames backend screen config data) e) ∧
    ∀ (e : Engine σ ρ α) (c : Call α),
      (∀ visit ∈ e.visits c, visit.FindsFresh) ∧
      ((∀ p ∈ e.plugins, p.draw.Blind) → e.settles c = true → (e.call c).fault = none →
        DrawnApart (e.passing c) (e.visits c) (e.frames c) (e.call c).engine) := by
  refine ⟨fun backend screen config data => ⟨?_, ?_⟩, fun e c => ⟨?_, ?_⟩⟩
  · exact openVisits_fresh backend screen config data
  · intro e blind opened
    obtain ⟨first, start, done⟩ := opened_cases opened
    have apart := opening_apart first (start.plugins ▸ blind) (congrArg Outcome.fault done)
      (optsVisits config.memory config.options config.plugins)
    rw [done] at apart
    refine ⟨first, start, ?_⟩
    rw [openVisits_laid start, openFrames_laid start]
    exact apart
  · exact visits_fresh e c
  · exact call_apart e c

/-- Leaves a save open and the style changed. -/
def leaky (id : String) : Plugin Unit Float where
  id := id
  draw _ _ _ :=
    ⟨(), [.draw .save, .draw (.setLineWidth 5.0), .draw (.line 0.0 0.0 1.0 1.0)], none⟩

def leakyConfig : Config Unit Float := ⟨.standard, [leaky "a", leaky "b"], ()⟩

def leakyChart : Opening Unit (Recorder Float) Float :=
  openWith Recorder.backend .fresh leakyConfig twoColumns

theorem leaks_contained : ∃ e, leakyChart = .opened e ∧
    (∃ first, LaidOut Recorder.backend .fresh leakyConfig twoColumns first ∧
      DrawnApart (runInit first.resolveScales).engine
        (openVisits Recorder.backend .fresh leakyConfig twoColumns)
        (openFrames Recorder.backend .fresh leakyConfig twoColumns) e) ∧
    DrawnApart e (e.visits .render) (e.frames .render) (e.call .render).engine := by
  have evaluated : leakyChart.passes (fun e => (e.call .render).fault.isNone) = true := by
    decide +kernel
  obtain ⟨e, opened, done⟩ := (Opening.passes_iff _ _).mp evaluated
  have blind : ∀ p ∈ leakyConfig.plugins, p.draw.Blind := by
    simp only [leakyConfig, List.forall_mem_cons]
    exact ⟨fun _ _ _ _ => rfl, fun _ _ _ _ => rfl, by simp⟩
  obtain ⟨opening, calls⟩ := @drawing_state_never_leaks Unit (Recorder Float) Float _
  have plugins : e.plugins = leakyConfig.plugins := by
    obtain ⟨first, start, work, _⟩ := opened_works opened fun p _ => p.keeps_any
    exact work.steady.plugins.trans start.plugins
  exact ⟨e, opened, (opening _ _ _ _).2 e blind opened,
    (calls e .render).2 (plugins ▸ blind) rfl (by simpa using done)⟩

end Engine
end LadderChart
