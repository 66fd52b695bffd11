import LadderChart.Ink.Layer

/-!
The canvas: a recorder of ink with a drawing style. Drawing takes the style in force at its call.
Styles are saved on a stack; a scope saves the style, runs its body and restores once.
-/

namespace LadderChart

structure Style (α : Type) where
  fill : Color α
  stroke : Color α
  lineWidth : α
  fontSize : α
  align : Align
  deriving DecidableEq

def Style.standard {α : Type} [Scalar α] : Style α := ⟨.black, .black, 1.0, 12.0, .left⟩

structure Canvas (α : Type) where
  style : Style α
  saved : List (Style α)
  ink : Layer α
  deriving DecidableEq

inductive Stroke (α : Type) where
  | save
  | restore
  | setFill (c : Color α)
  | setStroke (c : Color α)
  | setLineWidth (width : α)
  | setFontSize (size : α)
  | setAlign (align : Align)
  | rect (x y width height : α)
  | line (x1 y1 x2 y2 : α)
  | label (text : String) (x y : α)
  | scope (body : List (Stroke α))

namespace Canvas
variable {α : Type}

def blank [Scalar α] : Canvas α := ⟨.standard, [], .blank .main⟩

def depth (c : Canvas α) : Nat := c.saved.length

def save (c : Canvas α) : Canvas α := { c with saved := c.style :: c.saved }

/-- Nothing happens if nothing is saved. -/
def restore (c : Canvas α) : Canvas α :=
  match c.saved with
  | style :: rest => { c with style := style, saved := rest }
  | [] => c

def addRect (c : Canvas α) (x y width height : α) : Canvas α :=
  { c with ink := { c.ink with rects := c.ink.rects ++ [⟨x, y, width, height, c.style.fill⟩] } }

def addLine (c : Canvas α) (x1 y1 x2 y2 : α) : Canvas α :=
  let line : Line α := ⟨x1, y1, x2, y2, c.style.lineWidth, c.style.stroke⟩
  { c with ink := { c.ink with lines := c.ink.lines ++ [line] } }

def addLabel (c : Canvas α) (text : String) (x y : α) : Canvas α :=
  let label : Label α := ⟨text, x, y, c.style.fontSize, c.style.fill, c.style.align⟩
  { c with ink := { c.ink with labels := c.ink.labels ++ [label] } }

mutual

def apply (c : Canvas α) : Stroke α → Canvas α
  | .save => c.save
  | .restore => c.restore
  | .setFill color => { c with style := { c.style with fill := color } }
  | .setStroke color => { c with style := { c.style with stroke := color } }
  | .setLineWidth width => { c with style := { c.style with lineWidth := width } }
  | .setFontSize size => { c with style := { c.style with fontSize := size } }
  | .setAlign align => { c with style := { c.style with align := align } }
  | .rect x y width height => c.addRect x y width height
  | .line x1 y1 x2 y2 => c.addLine x1 y1 x2 y2
  | .label text x y => c.addLabel text x y
  | .scope body => (run c.save body).restore

def run (c : Canvas α) : List (Stroke α) → Canvas α
  | [] => c
  | stroke :: rest => run (apply c stroke) rest

end

/-- The number of saved styles at the end of a scope, before it is closed. -/
def scopeDepth (c : Canvas α) (body : List (Stroke α)) : Nat := (run c.save body).depth

/-- The standard style and nothing saved; the ink stays. -/
def resetStyle [Scalar α] (c : Canvas α) : Canvas α := { c with style := .standard, saved := [] }

theorem run_append (c : Canvas α) (first second : List (Stroke α)) :
    run c (first ++ second) = run (run c first) second := by
  induction first generalizing c with
  | nil => simp [run]
  | cons stroke rest ih => simp [run, ih]

theorem restore_ink (c : Canvas α) : c.restore.ink = c.ink := by
  unfold restore
  split <;> rfl

end Canvas
end LadderChart
