import LadderChart.Chart.Plugin
import LadderChart.Ink.Heat

/-!
The heat ladder and its `layout`: every visible column as a stack of cells, one for each rung,
filled by the heat of its weight. Sizes are in device pixels.
-/

namespace LadderChart

structure LadderStyle (α : Type) where
  gap : α
  widest : α
  cellHeight : α
  deriving DecidableEq

structure Cell (α : Type) where
  index : Nat
  rung : α
  weight : α
  rect : Rect α
  deriving DecidableEq

namespace LadderStyle
variable {σ α : Type} [Scalar α]

def standard : LadderStyle α := ⟨2.0, 50.0, 5.0⟩

/-- The width of the cells in columns of a given width, never negative. -/
def bodyWidth (style : LadderStyle α) (columnWidth : α) : α :=
  Scalar.upper (Scalar.lower style.widest (columnWidth - style.gap)) 0.0

def cell? (style : LadderStyle α) (s : Scene α) (index : Nat) (left width : α) (entry : α × α) :
    Option (Cell α) :=
  (s.rungPixel? entry.1).map fun y =>
    ⟨index, entry.1, entry.2,
      ⟨left, y, width, style.cellHeight, Heat.fill entry.2 s.data.colorRange⟩⟩

/-- The cells of one column, in the order of its rungs. -/
def columnCells (style : LadderStyle α) (s : Scene α) (width : α) (index : Nat) : List (Cell α) :=
  match s.columnPixel? index with
  | none => []
  | some centre =>
      ((s.data.rungsAt index).zip (s.data.weightsAt index)).filterMap
        (style.cell? s index (centre - width / 2.0) width)

def cells (style : LadderStyle α) (s : Scene α) : List (Cell α) :=
  match s.window, s.pitch? with
  | some w, some pitch => w.indices.flatMap (style.columnCells s (style.bodyWidth pitch))
  | _, _ => []

def strokes (c : Cell α) : List (Stroke α) :=
  [.setFill c.rect.fill, .rect c.rect.x c.rect.y c.rect.width c.rect.height]

def standardId : String := "heat-ladder"

def plugin (style : LadderStyle α) (id : String) : Plugin σ α where
  id := id
  draw memory scene _ :=
    ⟨memory, [.draw (.scope ((style.cells scene).flatMap strokes))], none⟩

end LadderStyle
end LadderChart
