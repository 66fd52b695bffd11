import LadderChart.Ink.Primitive

/-!
The two overlay surfaces. The under layer holds elements: bands over the full height of the plot,
placed in page pixels from its left edge. The pointer surface knows whether the pointer is over the
plot, which elements are shown with it, and the lines of the crosshair. Each remembers whether it
changed since it was painted.
-/

namespace LadderChart

structure Element (α : Type) where
  className : Option String
  fill : Color α
  visible : Bool
  offset : α
  width : α
  deriving DecidableEq

def Element.fresh {α : Type} [Scalar α] (fill : Color α) (className : Option String) : Element α :=
  ⟨className, fill, false, 0.0, 0.0⟩

/-- Elements are known by the order in which they came. -/
abbrev Handle := Nat

structure UnderLayer (α : Type) where
  elements : List (Element α)
  dirty : Bool
  deriving DecidableEq

namespace UnderLayer
variable {α : Type}

def blank : UnderLayer α := ⟨[], false⟩

/-- The handle of the new element is the number of those before it. -/
def append (u : UnderLayer α) (e : Element α) : UnderLayer α := ⟨u.elements ++ [e], true⟩

def nextHandle (u : UnderLayer α) : Handle := u.elements.length

def element? (u : UnderLayer α) (h : Handle) : Option (Element α) := u.elements[h]?

/-- Changes an element if there is one and the change makes a difference. -/
def update (u : UnderLayer α) (h : Handle) (differs : Element α → Bool)
    (change : Element α → Element α) : UnderLayer α :=
  match u.elements[h]? with
  | some e => if differs e then ⟨u.elements.set h (change e), true⟩ else u
  | none => u

def setVisible (u : UnderLayer α) (h : Handle) (visible : Bool) : UnderLayer α :=
  u.update h (fun e => e.visible != visible) (fun e => { e with visible := visible })

/-- A number that is none always makes a difference, the sign of zero never. -/
def place [Scalar α] (u : UnderLayer α) (h : Handle) (offset width : α) : UnderLayer α :=
  u.update h (fun e => !(e.offset == offset) || !(e.width == width))
    (fun e => { e with offset := offset, width := width })

def showAll (u : UnderLayer α) (visible : Bool) : List Handle → UnderLayer α
  | [] => u
  | h :: rest => showAll (u.setVisible h visible) visible rest

def markClean (u : UnderLayer α) : UnderLayer α := { u with dirty := false }

end UnderLayer

structure PointerSurface (α : Type) where
  hovered : Bool
  bindings : List Handle
  crosshair : List (Line α)
  dirty : Bool
  deriving DecidableEq

namespace PointerSurface
variable {α : Type}

def blank : PointerSurface α := ⟨false, [], [], false⟩

/-- Binds an element to the pointer; a second time changes nothing. -/
def bind (p : PointerSurface α) (h : Handle) : PointerSurface α :=
  if p.bindings.contains h then p else { p with bindings := p.bindings ++ [h] }

def setCrosshair [Scalar α] (p : PointerSurface α) (lines : List (Line α)) : PointerSurface α :=
  if Line.agreeAll p.crosshair lines then p else { p with crosshair := lines, dirty := true }

def markClean (p : PointerSurface α) : PointerSurface α := { p with dirty := false }

end PointerSurface

/-- The pointer enters or leaves: bound elements are shown while it is over a column. -/
def setHovered {α : Type} (hovered overColumn : Bool) (u : UnderLayer α) (p : PointerSurface α) :
    UnderLayer α × PointerSurface α :=
  (u.showAll (hovered && overColumn) p.bindings, { p with hovered := hovered })

end LadderChart
