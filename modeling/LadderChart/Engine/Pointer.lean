import LadderChart.Engine.Basic

/-!
The pointer: `pointer_enter`, `pointer_move`, `pointer_leave`, `index_at`, `select_at`. Positions
come in page pixels from the corner of the plot. The hit test finds the column nearest to a
position; the plot counts as a little larger than it is, so that its edge belongs to it after
rounding.
-/

namespace LadderChart

/-- What a position drills down to: a column, its span of time up to the next column, and the value
of the ladder axis. -/
structure Selection (α : Type) where
  index : Nat
  start : α
  finish : α
  value : α
  deriving DecidableEq

namespace Hit
variable {α : Type} [Scalar α]

def tolerance : α := 0.000001

/-- Whether a canvas position lies in the plot, give or take the tolerance. -/
def inside (b : Box α) (x y : α) : Bool :=
  decide (b.left - tolerance ≤ x) && decide (x ≤ b.right + tolerance)
    && decide (b.top - tolerance ≤ y) && decide (y ≤ b.bottom + tolerance)

/-- The first of some candidates at the smallest distance. -/
def nearest? {τ : Type} (distance : τ → α) : List τ → Option τ
  | [] => none
  | x :: rest =>
      match nearest? distance rest with
      | none => some x
      | some best => if Scalar.before (distance best) (distance x) then some best else some x

def column? (d : Distribution) (series : List α) (w : Window) (value : α) : Option Nat :=
  match d with
  | .ordinal => some (w.clamp (Scalar.nearestIndex value))
  | .linear =>
      -- the distance is measured in values, not in pixels
      let columns := w.indices.zip (w.slice series)
      (nearest? (fun c => Scalar.magnitude (c.2 - value)) columns).map (·.1)

end Hit

namespace Scene
variable {α : Type} [Scalar α]

def canvasX (s : Scene α) (x : α) : α := s.box.left + x * s.pixelRatio

def canvasY (s : Scene α) (y : α) : α := s.box.top + y * s.pixelRatio

def indexAt? (s : Scene α) (x y : α) : Option Nat :=
  match s.window with
  | none => none
  | some w =>
      if Hit.inside s.box (s.canvasX x) (s.canvasY y) then
        (s.xScale.value? .x s.box (s.canvasX x)).bind
          (Hit.column? s.xScale.distribution s.data.series w)
      else none

/-- The end of the span of a column: the next one, or the length of the span before it again. -/
def spanEnd (series : List α) (index : Nat) (start : α) : α :=
  match series[index + 1]? with
  | some next => next
  | none =>
      match index with
      | 0 => start
      | before + 1 =>
          match series[before]? with
          | some previous => start + (start - previous)
          | none => start

def select? (s : Scene α) (x y : α) : Option (Selection α) :=
  match s.indexAt? x y with
  | none => none
  | some index =>
      match s.data.series[index]?, s.yScale.value? .y s.box (s.canvasY y) with
      | some start, some value => some ⟨index, start, spanEnd s.data.series index start, value⟩
      | _, _ => none

/-- The lines of the crosshair at a pointer: over the full height, then over the full width. -/
def crosshair (s : Scene α) (c : CrosshairOptions α) (x y : α) : List (Line α) :=
  let b := s.box
  let cx := s.canvasX x
  let cy := s.canvasY y
  if Hit.inside b cx cy then
    (if c.x then [⟨cx, b.top, cx, b.bottom, s.pixelRatio, c.stroke⟩] else [])
      ++ (if c.y then [⟨b.left, cy, b.right, cy, s.pixelRatio, c.stroke⟩] else [])
  else []

end Scene

namespace Engine
variable {σ ρ α : Type} [Scalar α]

def indexAt? (e : Engine σ ρ α) (x y : α) : Option Nat := e.scene.indexAt? x y

def select? (e : Engine σ ρ α) (x y : α) : Option (Selection α) := e.scene.select? x y

def hover (e : Engine σ ρ α) (hovered : Bool) : Engine σ ρ α :=
  { e with surfaces := e.surfaces.setHovered hovered e.scene.cursor.index.isSome }

def setCursor (e : Engine σ ρ α) (c : Cursor α) : Engine σ ρ α :=
  { e with scene := { e.scene with cursor := c } }

def setCrosshair (e : Engine σ ρ α) (lines : List (Line α)) : Engine σ ρ α :=
  { e with surfaces := { e.surfaces with pointer := e.surfaces.pointer.setCrosshair lines } }

/-- The plugins are told about the cursor, and the overlays painted if they changed. -/
def announce (e : Engine σ ρ α) : Outcome σ ρ α := (runSetCursor e).andThen repaintIfDirty

def pointerEnter (e : Engine σ ρ α) : Outcome σ ρ α := (e.hover true).repaintIfDirty

/-- The pointer is at a position. The column found is the hovered one from then on. -/
def pointerMove (e : Engine σ ρ α) (x y : α) : Outcome σ ρ α :=
  -- bound elements are shown by the column that was hovered before this move
  let entered := if e.surfaces.pointer.hovered then e else e.hover true
  let moved := entered.setCursor ⟨e.indexAt? x y, some (x, y)⟩
  (moved.setCrosshair (moved.scene.crosshair e.options.crosshair x y)).announce

def pointerLeave (e : Engine σ ρ α) : Outcome σ ρ α :=
  (((e.setCursor .away).hover false).setCrosshair []).announce

end Engine
end LadderChart
