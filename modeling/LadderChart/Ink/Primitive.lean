import LadderChart.Ink.Color

/-!
Ink: straight lines, filled rectangles and labels, in device pixels.
-/

namespace LadderChart

structure Line (α : Type) where
  x1 : α
  y1 : α
  x2 : α
  y2 : α
  width : α
  color : Color α
  deriving DecidableEq

structure Rect (α : Type) where
  x : α
  y : α
  width : α
  height : α
  fill : Color α
  deriving DecidableEq

/-- Which end of a label stands at its position. -/
inductive Align where
  | left | center | right
  deriving DecidableEq, Repr

structure Label (α : Type) where
  text : String
  x : α
  y : α
  size : α
  color : Color α
  align : Align
  deriving DecidableEq

variable {α : Type} [Scalar α]

def finite (x : α) : Bool := Scalar.isFinite x

def positive (x : α) : Bool := Scalar.isFinite x && !decide (x ≤ 0.0)

namespace Line

def check (l : Line α) : Check := do
  refuseIf (!(finite l.x1 && finite l.y1 && finite l.x2 && finite l.y2)) .lineEnds
  refuseIf (!positive l.width) .lineWidth
  l.color.check

def agrees (l m : Line α) : Bool :=
  l.x1 == m.x1 && l.y1 == m.y1 && l.x2 == m.x2 && l.y2 == m.y2 && l.width == m.width
    && l.color.agrees m.color

def agreeAll : List (Line α) → List (Line α) → Bool
  | [], [] => true
  | l :: rest, m :: more => l.agrees m && agreeAll rest more
  | _, _ => false

end Line

namespace Rect

def centerX (r : Rect α) : α := r.x + r.width / 2.0

def check (r : Rect α) : Check := do
  refuseIf (!(finite r.x && finite r.y)) .rectOrigin
  refuseIf (!(finite r.width && finite r.height && decide ((0.0 : α) ≤ r.width)
    && decide ((0.0 : α) ≤ r.height))) .rectSize
  r.fill.check

end Rect

namespace Label

def check (l : Label α) : Check := do
  refuseIf l.text.isEmpty .labelEmpty
  refuseIf (!(finite l.x && finite l.y)) .labelPosition
  refuseIf (!positive l.size) .fontSize
  l.color.check

end Label
end LadderChart
