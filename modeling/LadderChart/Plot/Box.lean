import LadderChart.Fault
import LadderChart.Number.Scalar

/-!
Where the plot stands on the canvas: the bounding box that is left of a viewport by the insets.
Sizes on the page are in page pixels, positions on the canvas in device pixels; the pixel ratio is
the number of device pixels in a page pixel.
-/

namespace LadderChart

structure Viewport where
  width : UInt32
  height : UInt32
  deriving DecidableEq

def Viewport.check (v : Viewport) : Check :=
  if v.width = 0 ∨ v.height = 0 then .error (.viewport v.width v.height) else .ok ()

/-- Space around the plot for title and labels, in page pixels. -/
structure Insets (α : Type) where
  left : α
  right : α
  top : α
  bottom : α
  deriving DecidableEq

/-- The plot area, in device pixels. The vertical axis points down. -/
structure Box (α : Type) where
  left : α
  top : α
  width : α
  height : α
  deriving DecidableEq

variable {α : Type} [Scalar α]

namespace Insets

def standard : Insets α := ⟨56.0, 16.0, 32.0, 36.0⟩

def checkSide (side : Side) (x : α) : Check :=
  refuseIf (!Scalar.isFinite x || decide (x < 0.0)) (.inset side)

def check (i : Insets α) : Check := do
  checkSide .left i.left
  checkSide .right i.right
  checkSide .top i.top
  checkSide .bottom i.bottom

def agrees (i j : Insets α) : Bool :=
  i.left == j.left && i.right == j.right && i.top == j.top && i.bottom == j.bottom

end Insets

namespace Box

def right (b : Box α) : α := b.left + b.width

def bottom (b : Box α) : α := b.top + b.height

def containsX (b : Box α) (x : α) : Bool := decide (b.left ≤ x) && decide (x ≤ b.right)

def ofWord (n : UInt32) : α := Scalar.ofNat n.toNat

/-- What the insets leave of the canvas; something has to be left. -/
def ofViewport (v : Viewport) (insets : Insets α) (ratio : α) : Except Fault (Box α) := do
  v.check
  insets.check
  let left := insets.left * ratio
  let top := insets.top * ratio
  let width := ofWord v.width - left - insets.right * ratio
  let height := ofWord v.height - top - insets.bottom * ratio
  if width ≤ 0.0 ∨ height ≤ 0.0 then .error (.data (.noDrawableArea v.width v.height))
  else return ⟨left, top, width, height⟩

end Box
end LadderChart
