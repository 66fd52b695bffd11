import LadderChart.Chart.Options
import LadderChart.Ink.Canvas
import LadderChart.Ink.Overlay

/-!
What a plugin sees of the render context and what it may change. The scene (data, window, scales,
cursor) is read only. The surfaces are changed through actions, so a plugin can do to them exactly
what the actions allow, and what it does is plain data.
-/

namespace LadderChart

/-- The hovered column, and the pointer in page pixels from the corner of the plot. -/
structure Cursor (α : Type) where
  index : Option Nat
  pointer : Option (α × α)
  deriving DecidableEq

def Cursor.away {α : Type} : Cursor α := ⟨none, none⟩

structure Scene (α : Type) where
  viewport : Viewport
  pixelRatio : α
  box : Box α
  data : Dataset α
  window : Option Window
  xScale : Scale α
  yScale : Scale α
  cursor : Cursor α
  deriving DecidableEq

namespace Scene
variable {α : Type} [Scalar α]

def columnPixel? (s : Scene α) (index : Nat) : Option α :=
  (Scale.domainValue? s.xScale.distribution index s.data.series).bind (s.xScale.pixel? .x s.box)

def rungPixel? (s : Scene α) (rung : α) : Option α := s.yScale.pixel? .y s.box rung

def pitch? (s : Scene α) : Option α := s.window.map fun w => Scale.pitch w s.box

end Scene

structure Surfaces (α : Type) where
  canvas : Canvas α
  under : UnderLayer α
  pointer : PointerSurface α
  deriving DecidableEq

inductive Action (α : Type) where
  | draw (stroke : Stroke α)
  | append (e : Element α)
  | reveal (h : Handle) (visible : Bool)
  | place (h : Handle) (offset width : α)
  | bind (h : Handle)

namespace Surfaces
variable {α : Type} [Scalar α]

def blank : Surfaces α := ⟨.blank, .blank, .blank⟩

def apply (s : Surfaces α) : Action α → Surfaces α
  | .draw stroke => { s with canvas := s.canvas.apply stroke }
  | .append e => { s with under := s.under.append e }
  | .reveal h visible => { s with under := s.under.setVisible h visible }
  | .place h offset width => { s with under := s.under.place h offset width }
  | .bind h => { s with pointer := s.pointer.bind h }

def run (s : Surfaces α) (actions : List (Action α)) : Surfaces α := actions.foldl apply s

def overlayDirty (s : Surfaces α) : Bool := s.under.dirty || s.pointer.dirty

def markClean (s : Surfaces α) : Surfaces α :=
  { s with under := s.under.markClean, pointer := s.pointer.markClean }

def setHovered (s : Surfaces α) (hovered overColumn : Bool) : Surfaces α :=
  let moved := LadderChart.setHovered hovered overColumn s.under s.pointer
  { s with under := moved.1, pointer := moved.2 }

theorem run_append (s : Surfaces α) (first second : List (Action α)) :
    s.run (first ++ second) = (s.run first).run second := by
  simp [run]

end Surfaces
end LadderChart
