import LadderChart.Chart.Axes
import LadderChart.Chart.Plugin
import LadderChart.Ink.Backend

/-!
The engine: options, plugins with their memory, a backend with its screen, the scene and the
surfaces. A call that fails keeps what it reached, so every call answers with the engine it leaves
and with the fault it stopped at, if there is one. The events that an engine reports on its way to
whoever listens are left out; nothing in it depends on them.
-/

namespace LadderChart

structure Engine (σ ρ α : Type) where
  options : Options α
  plugins : List (Plugin σ α)
  memory : σ
  backend : Backend ρ α
  screen : ρ
  scene : Scene α
  surfaces : Surfaces α

structure Outcome (σ ρ α : Type) where
  engine : Engine σ ρ α
  fault : Option Fault

namespace Outcome
variable {σ ρ α : Type}

def done (e : Engine σ ρ α) : Outcome σ ρ α := ⟨e, none⟩

def andThen (o : Outcome σ ρ α) (next : Engine σ ρ α → Outcome σ ρ α) : Outcome σ ρ α :=
  match o.fault with
  | some _ => o
  | none => next o.engine

end Outcome

namespace Engine
variable {σ ρ α : Type} [Scalar α]

/-! ### Hooks -/

/-- Runs one hook of each plugin in order, up to the first that fails. After each of them the
surfaces are settled, also after the one that fails. -/
def runHooks (hook : Hook) (body : Plugin σ α → HookBody σ α)
    (settle : Surfaces α → Surfaces α) : List (Plugin σ α) → Engine σ ρ α → Outcome σ ρ α
  | [], e => .done e
  | p :: rest, e =>
      let run := body p e.memory e.scene e.surfaces
      -- what the hook did stays, also if it failed
      let next := { e with
        memory := run.memory, surfaces := settle (e.surfaces.run run.actions) }
      match run.fault with
      | some fault => ⟨next, some (.plugin p.id hook fault)⟩
      | none => runHooks hook body settle rest next

def runInit (e : Engine σ ρ α) : Outcome σ ρ α := runHooks .init Plugin.init id e.plugins e

def runSetCursor (e : Engine σ ρ α) : Outcome σ ρ α :=
  runHooks .setCursor Plugin.setCursor id e.plugins e

/-- Whatever a plugin does to the style of the canvas, the next one starts from the standard. -/
def settleCanvas (s : Surfaces α) : Surfaces α := { s with canvas := s.canvas.resetStyle }

def runDraw (e : Engine σ ρ α) : Outcome σ ρ α :=
  runHooks .draw Plugin.draw settleCanvas e.plugins e

/-! ### Scales -/

/-- The scale of an axis for some data and a window. A rule that is there decides; what it gives
counts only if it can serve as an axis. -/
def resolveAxis (o : Options α) (data : Dataset α) (window : Option Window) (axis : Axis) :
    Scale α :=
  match o.scales.get? axis.key with
  | none => .degenerate .linear
  | some s =>
      match window with
      | none => .degenerate s.distribution
      | some w =>
          match s.rule with
          | some rule => ⟨s.distribution, Extent.proper (rule data w)⟩
          | none => ⟨s.distribution, Scale.builtinRange axis s.distribution data w⟩

def resolveScales (e : Engine σ ρ α) : Engine σ ρ α :=
  { e with scene := { e.scene with
      xScale := resolveAxis e.options e.scene.data e.scene.window .x
      yScale := resolveAxis e.options e.scene.data e.scene.window .y } }

/-! ### Painting -/

/-- Visible elements as rectangles over the height of the plot, in device pixels. A fill under the
class name of an element stands for its own. -/
def bandRect (o : Options α) (s : Scene α) (e : Element α) : Rect α where
  x := s.box.left + e.offset * s.pixelRatio
  y := s.box.top
  width := e.width * s.pixelRatio
  height := s.box.height
  fill := (e.className.bind o.fills.get?).getD e.fill

def underInk (o : Options α) (s : Scene α) (u : UnderLayer α) : Layer α :=
  { Layer.blank .under with rects := (u.elements.filter (·.visible)).map (bandRect o s) }

def overInk (p : PointerSurface α) : Layer α := { Layer.blank .over with lines := p.crosshair }

def overlayFrame (e : Engine σ ρ α) : Frame α :=
  ((Frame.overlay e.scene.viewport).setLayer (underInk e.options e.scene e.surfaces.under)).setLayer
    (overInk e.surfaces.pointer)

def fullFrame (e : Engine σ ρ α) : Frame α :=
  (((Frame.full e.scene.viewport).setLayer
    (underInk e.options e.scene e.surfaces.under)).setLayer e.surfaces.canvas.ink).setLayer
      (overInk e.surfaces.pointer)

/-- After a frame was handed over: the overlays are clean only if it was accepted. -/
def accepted (e : Engine σ ρ α) (answer : ρ × Option Fault) : Outcome σ ρ α :=
  match answer.2 with
  | some fault => ⟨{ e with screen := answer.1 }, some fault⟩
  | none => .done { e with screen := answer.1, surfaces := e.surfaces.markClean }

def paint (e : Engine σ ρ α) : Outcome σ ρ α := e.accepted (e.backend.paint e.screen e.fullFrame)

def repaint (e : Engine σ ρ α) : Outcome σ ρ α :=
  e.accepted (e.backend.repaint e.screen e.overlayFrame)

def repaintIfDirty (e : Engine σ ρ α) : Outcome σ ρ α :=
  if e.surfaces.overlayDirty then e.repaint else .done e

def drawAxes (e : Engine σ ρ α) : Engine σ ρ α :=
  { e with surfaces := { e.surfaces with
      canvas := Canvas.blank.run (Axes.strokes e.options e.scene) } }

/-- A full pass: scales, axes, the ink of every plugin, and a frame of all layers. -/
def render (e : Engine σ ρ α) : Outcome σ ρ α :=
  (runDraw e.resolveScales.drawAxes).andThen paint

end Engine

/-! ### Opening an engine -/

structure Config (σ α : Type) where
  options : Options α
  plugins : List (Plugin σ α)
  memory : σ

/-- An engine that could not be opened leaves the memory of its plugins and the screen. -/
inductive Opening (σ ρ α : Type) where
  | refused (memory : σ) (screen : ρ) (fault : Fault)
  | opened (e : Engine σ ρ α)

namespace Engine
variable {σ ρ α : Type} [Scalar α]

def distributionOf (o : Options α) (axis : Axis) : Distribution :=
  ((o.scales.get? axis.key).map (·.distribution)).getD .linear

/-- The scene before anything happened: all of the data, and scales without ranges. -/
def firstScene (o : Options α) (box : Box α) (data : Dataset α) : Scene α where
  viewport := o.viewport
  pixelRatio := o.pixelRatio
  box := box
  data := data
  window := Window.full? data.length
  xScale := .degenerate (distributionOf o .x)
  yScale := .degenerate (distributionOf o .y)
  cursor := .away

/-- Options, data and plot area are checked before there is an engine. -/
def layOut (o : Options α) (data : Dataset α) : Except Fault (Box α) := do
  o.check
  data.check
  Box.ofViewport o.viewport o.insets o.pixelRatio

def start (e : Engine σ ρ α) : Opening σ ρ α :=
  let outcome := e.resolveScales.runInit.andThen render
  match outcome.fault with
  | some fault => .refused outcome.engine.memory outcome.engine.screen fault
  | none => .opened outcome.engine

def openWith (backend : Backend ρ α) (screen : ρ) (config : Config σ α) (data : Dataset α) :
    Opening σ ρ α :=
  match Plugin.checkIds [] config.plugins with
  | .error fault => .refused config.memory screen fault
  | .ok () =>
      match Plugin.runOpts config.memory config.options config.plugins with
      | (memory, .error fault) => .refused memory screen fault
      | (memory, .ok o) =>
          match layOut o data with
          | .error fault => .refused memory screen fault
          | .ok box =>
              start
                { options := o
                  plugins := config.plugins
                  memory := memory
                  backend := backend
                  screen := screen
                  scene := firstScene o box data
                  surfaces := .blank }

def pluginIds (e : Engine σ ρ α) : List String := e.plugins.map (·.id)

def hasPlugin (e : Engine σ ρ α) (id : String) : Bool := e.pluginIds.contains id

end Engine
end LadderChart
