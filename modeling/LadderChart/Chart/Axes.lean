import LadderChart.Chart.Scene
import LadderChart.Time.Stamp

/-!
The base axes, as `draw_axes` draws them: two lines, the title, a label for every so many columns
and a label for each tick of the ladder axis. They are a program of strokes in a scope of its own.
Texts are not measured here: how wide one is when it is painted is up to the backend.
-/

namespace LadderChart.Axes
variable {α : Type} [Scalar α]

def fewestTicks : Nat := 2

def mostTicks : Nat := 12

def tickTarget (length spacing : α) : Nat :=
  if ¬ Scalar.isFinite length ∨ length ≤ 0.0 then fewestTicks
  else max fewestTicks (min mostTicks (Scalar.wholeUnits (length / spacing) + 1))

def stride (columns ticks : Nat) : Nat := max 1 ((columns + ticks - 1) / ticks)

/-- Labels of ticks one apart or more are whole; closer ones show the first digit of the step. -/
def labelPlaces (step : α) : Nat :=
  let size := Scalar.magnitude step
  if (1.0 : α) ≤ size ∨ step == 0.0 then 0 else Scalar.places size

def valueText (value step : α) : String := Scalar.fixed (labelPlaces step) value

def isTimeAxis (o : Options α) : Bool := (o.scales.get? Axis.x.key).any (·.time)

def columnText (o : Options α) (value : α) : String :=
  if isTimeAxis o then Stamp.label value o.zone else Scalar.plain value

def columnLabel? (o : Options α) (s : Scene α) (index : Nat) : Option (α × String) :=
  match s.columnPixel? index, s.data.series[index]? with
  | some x, some value => some (x, columnText o value)
  | _, _ => none

def columnLabels (o : Options α) (s : Scene α) : List (α × String) :=
  match s.window with
  | none => []
  | some w =>
      let ticks := tickTarget s.box.width (160.0 * s.pixelRatio)
      (w.everyNth (stride w.size ticks)).filterMap (columnLabel? o s)

/-- The values of the ticks of a range: evenly spaced, or one if the range has no span. -/
def tickValues (low step : α) (ticks : Nat) : List α :=
  if step ≤ 0.0 then [low]
  -- a step that is no number puts every tick at the low end
  else (List.range ticks).map fun tick =>
    if 0.0 < step then low + step * Scalar.ofNat tick else low

def rungLabels (s : Scene α) : List (α × String) :=
  match s.yScale.range with
  | none => []
  | some (low, high) =>
      let ticks := tickTarget s.box.height (48.0 * s.pixelRatio)
      let step := (high - low) / Scalar.ofNat (ticks - 1)
      (tickValues low step ticks).filterMap fun value =>
        (s.rungPixel? value).map fun y => (y, valueText value step)

def color : Color α := ⟨0.2, 0.2, 0.2, 1.0⟩

def titleStrokes (o : Options α) (s : Scene α) : List (Stroke α) :=
  if o.title.isEmpty then []
  else
    [.setFontSize (16.0 * s.pixelRatio), .setAlign .center,
     .label o.title (Box.ofWord s.viewport.width / 2.0) (6.0 * s.pixelRatio)]

def strokes (o : Options α) (s : Scene α) : List (Stroke α) :=
  let b := s.box
  let gap : α := 6.0 * s.pixelRatio
  [.scope
    ([.setStroke color, .setFill color, .setLineWidth s.pixelRatio,
      .line b.left b.top b.left b.bottom, .line b.left b.bottom b.right b.bottom]
      ++ titleStrokes o s
      ++ [.setFontSize (11.0 * s.pixelRatio), .setAlign .center]
      ++ (columnLabels o s).map (fun l => .label l.2 l.1 (b.bottom + gap))
      ++ [.setAlign .right]
      ++ (rungLabels s).map (fun l => .label l.2 (b.left - gap) l.1))]

end LadderChart.Axes
