import LadderChart.Ink.Primitive
import LadderChart.Plot.Box

/-!
Layers of ink and the frames made of them. A full frame has three layers, back to front; an
overlay frame has the outer two, and the ink between them stays as it was painted last.
-/

namespace LadderChart

inductive LayerKind where
  | under | main | over
  deriving DecidableEq, Repr

structure Layer (α : Type) where
  kind : LayerKind
  lines : List (Line α)
  rects : List (Rect α)
  labels : List (Label α)
  deriving DecidableEq

namespace Layer
variable {α : Type}

def blank (kind : LayerKind) : Layer α := ⟨kind, [], [], []⟩

def isEmpty (l : Layer α) : Bool := l.lines.isEmpty && l.rects.isEmpty && l.labels.isEmpty

def append (l m : Layer α) : Layer α :=
  { l with
    lines := l.lines ++ m.lines
    rects := l.rects ++ m.rects
    labels := l.labels ++ m.labels }

def check [Scalar α] (l : Layer α) : Check := do
  checkAll Line.check l.lines
  checkAll Rect.check l.rects
  checkAll Label.check l.labels

end Layer

structure Frame (α : Type) where
  viewport : Viewport
  layers : List (Layer α)
  deriving DecidableEq

namespace Frame
variable {α : Type}

def full (v : Viewport) : Frame α := ⟨v, [.blank .under, .blank .main, .blank .over]⟩

def overlay (v : Viewport) : Frame α := ⟨v, [.blank .under, .blank .over]⟩

def layer? (f : Frame α) (kind : LayerKind) : Option (Layer α) :=
  f.layers.find? fun l => l.kind == kind

/-- Replaces the first layer of a kind, if there is one. -/
def replace (ink : Layer α) : List (Layer α) → List (Layer α)
  | [] => []
  | l :: rest => if l.kind = ink.kind then ink :: rest else l :: replace ink rest

def setLayer (f : Frame α) (ink : Layer α) : Frame α := { f with layers := replace ink f.layers }

def isOverlayOnly (f : Frame α) : Bool := (f.layer? .main).isNone

def isEmpty (f : Frame α) : Bool := f.layers.all Layer.isEmpty

def check [Scalar α] (f : Frame α) : Check := do
  f.viewport.check
  checkAll Layer.check f.layers

end Frame
end LadderChart
